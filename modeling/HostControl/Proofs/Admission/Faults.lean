/-
Module: HostControl.Proofs.Admission.Faults
Purpose: Where admission fails for want of numbers. A request fails as the take does that it makes, and every bucket
  has one of the three quotas of the configuration. So there are two cases only: the clock stands near the end of
  its words, or a rate leaves no time for a token, which no check of the settings keeps out.
Main exports: Request, Request.serve, Request.asks, serve_eq, Controller.Within, run_within, faults_by_rate
-/
import HostControl.Config.Load
import HostControl.Proofs.Admission.Counter
import HostControl.Proofs.Admission.Recency
import HostControl.Proofs.Admission.Take

namespace HostControl.Admission

/-! ### Requests -/

/-- What is asked of the limiters: whether a request of a tier or of a caller may pass, and to prune. -/
inductive Request where
  | check (ctx : Context) (tier : Tier) (clock : Clock) (answers : Cache.Answers)
  | client (ctx : Context) (address : Address) (now : Span)
  | prune (now : Span)

namespace Request

/-- The limiters after a request. -/
def serve (c : Controller) : Request → Except ArithmeticFault Controller
  | check ctx tier clock answers => (c.check ctx tier clock answers).map (·.2)
  | client ctx address now => (c.checkClient ctx address now).map (·.2)
  | prune now => .ok (c.prune now).2

/-- The limiters after requests, the latest first. One that has no result ends the run. -/
def run (start : Controller) : List Request → Except ArithmeticFault Controller
  | [] => .ok start
  | request :: past => (run start past).bind fun c => request.serve c

/-- The time from which on no token is asked for: a count in the cache may go before. -/
def time : Request → Span
  | check _ tier clock answers =>
      clock.elapsed + (answers.increment (windowKey tier clock.now)).1.wait clock.elapsed
  | client _ _ now => now
  | prune now => now

/-- The bucket that a request takes a token from, and when it does, if it does so at all. -/
def asks (c : Controller) : Request → Option (Bucket × Span)
  | check _ tier clock answers =>
      if c.distributed then
        match (answers.increment (windowKey tier clock.now)).2 with
        | .ok _ => none
        | .error _ => some (c.bucket tier,
            clock.elapsed + (answers.increment (windowKey tier clock.now)).1.wait clock.elapsed)
      else some (c.bucket tier, clock.elapsed)
  | client _ address now => some (((c.clients.welcoming address).slot address now).bucket, now)
  | prune _ => none

/-- The limiters with the bucket that a request has taken from. -/
def stores (c : Controller) (bucket : Bucket) : Request → Controller
  | check _ tier _ _ => c.setBucket tier bucket
  | client _ address now => { c with clients := (c.clients.welcoming address).seeing address now bucket }
  | prune _ => c

/-- The limiters after a request that takes no token. -/
def passes (c : Controller) : Request → Controller
  | prune now => (c.prune now).2
  | _ => c

variable {c next : Controller} {r : Request} {fault : ArithmeticFault} {quotas : List Quota}

theorem checkLocal_map (tier : Tier) (now : Span) (c : Controller) :
    (c.checkLocal tier now).map (·.2) =
      ((c.bucket tier).take now).map fun taken => c.setBucket tier taken.2 := by
  unfold Controller.checkLocal
  cases taken : (c.bucket tier).take now with
  | error fault => simp only [taken, bind, Except.bind, Except.map]
  | ok result => simp only [taken, bind, Except.bind, Except.map, pure, Except.pure]

/-- A request takes from the bucket that it asks, and does nothing else that can fail. -/
theorem serve_eq (c : Controller) (r : Request) :
    r.serve c =
      match r.asks c with
      | none => .ok (r.passes c)
      | some (b, now) => (b.take now).map fun taken => r.stores c taken.2 := by
  cases r with
  | check ctx tier clock answers =>
    cases shared : c.distributed with
    | false =>
      simp only [serve, Controller.check, asks, shared, Bool.false_eq_true, if_false, stores]
      rw [← checkLocal_map]
      cases c.checkLocal tier clock.elapsed with
      | error fault => rfl
      | ok taken => rfl
    | true =>
      cases answered : (answers.increment (windowKey tier clock.now)).2 with
      | ok count =>
        simp only [serve, Controller.check, Controller.countShared, asks, shared, answered, if_true, passes]
        by_cases first : count = 1
        · simp only [first, if_true]
          rfl
        · simp only [first, if_false]
          rfl
      | error e =>
        simp only [serve, Controller.check, Controller.countShared, asks, shared, answered, if_true, stores]
        rw [← checkLocal_map]
        cases c.checkLocal tier (clock.elapsed +
            (answers.increment (windowKey tier clock.now)).1.wait clock.elapsed) with
        | error fault => rfl
        | ok taken => rfl
  | client ctx address now =>
    simp only [serve, Controller.checkClient, asks, stores, Clients.take_eq]
    cases (((c.clients.welcoming address).slot address now).bucket.take now) with
    | error fault => rfl
    | ok taken => rfl
  | prune now => rfl

/-- No token is asked for later than at the time of a request. -/
theorem asks_le_time {b : Bucket} {now : Span} (asked : r.asks c = some (b, now)) : now ≤ r.time := by
  cases r with
  | check ctx tier clock answers =>
    simp only [asks] at asked
    split at asked
    · split at asked
      · cases asked
      · cases asked
        exact Nat.le_refl _
    · cases asked
      exact Nat.le_add_right _ _
  | client ctx address now =>
    cases asked
    exact Nat.le_refl _
  | prune now => cases asked

/-- A request fails as its take does. -/
theorem serve_error_iff :
    r.serve c = .error fault ↔ ∃ b now, r.asks c = some (b, now) ∧ b.take now = .error fault := by
  rw [serve_eq]
  cases r.asks c with
  | none => simp
  | some asked =>
    obtain ⟨b, now⟩ := asked
    cases taken : b.take now with
    | error other => simp [taken, Except.map]
    | ok result => simp [taken, Except.map]

end Request

/-! ### The quotas of the limiters -/

/-- The quotas of a configuration: those of the two tiers, and that of every caller. -/
def quotasOf (config : Config.RateLimit) : List Quota :=
  [.of config.globalRate config.burst, .of config.adminRate (max (config.burst / 2) 1),
    .of config.clientRate config.clientBurst]

/-- Every bucket of the limiters, and each that will be made for a caller, has one of some quotas. -/
structure Controller.Within (quotas : List Quota) (c : Controller) : Prop where
  bucket : ∀ tier, (c.bucket tier).quota ∈ quotas
  caller : c.clients.quota ∈ quotas
  slots : ∀ e ∈ c.clients.slots, e.2.bucket.quota ∈ quotas

theorem within_of (config : Config.RateLimit) (cached : Bool) (made : Span) :
    (Controller.of config cached made).Within (quotasOf config) where
  bucket tier := by
    cases tier with
    | global => exact List.mem_cons_self
    | admin => exact List.mem_cons_of_mem _ List.mem_cons_self
  caller := List.mem_cons_of_mem _ (List.mem_cons_of_mem _ List.mem_cons_self)
  slots := nofun

namespace Clients

variable {address : Address} {now : Span} {bucket : Bucket} {c : Clients}

theorem welcoming_quota (address : Address) (c : Clients) : (c.welcoming address).quota = c.quota :=
  (makeRoom_keeps address _).1

/-- Making room for a caller brings none in. -/
theorem welcoming_slots (address : Address) (c : Clients) :
    (c.welcoming address).slots.Sublist c.slots := by
  rw [welcoming, makeRoom_eq]
  split
  · unfold evict
    split
    · exact .refl _
    · exact Table.erase_sublist _ _
  · exact .refl _

/-- Whom a caller's slot is looked up for has it already, or is given a new bucket. -/
theorem slot_bucket (address : Address) (now : Span) (c : Clients) :
    (∃ e ∈ c.slots, (c.slot address now).bucket = e.2.bucket) ∨
      (c.slot address now).bucket = ⟨c.quota, now, none⟩ := by
  unfold slot
  cases found : c.slots.find? address with
  | none => exact .inr rfl
  | some slot => exact .inl ⟨_, Table.mem_of_find? found, rfl⟩

theorem mem_seeing {e : Address × Slot} (member : e ∈ (c.seeing address now bucket).slots) :
    e.2.bucket = bucket ∨ e ∈ c.slots := by
  rcases List.mem_cons.1 ((Table.set_perm _ _ _).subset member) with rfl | other
  · exact .inl rfl
  · exact .inr ((Table.erase_sublist _ _).subset other)

end Clients

namespace Request

variable {c next : Controller} {r : Request} {quotas : List Quota}

/-- The bucket of a request has one of the quotas. -/
theorem asks_within (within : c.Within quotas) {b : Bucket} {now : Span}
    (asked : r.asks c = some (b, now)) : b.quota ∈ quotas := by
  cases r with
  | check ctx tier clock answers =>
    simp only [asks] at asked
    split at asked
    · split at asked
      · cases asked
      · cases asked
        exact within.bucket tier
    · cases asked
      exact within.bucket tier
  | client ctx address now =>
    cases asked
    rcases Clients.slot_bucket address now (c.clients.welcoming address) with ⟨e, member, same⟩ | fresh
    · rw [same]
      exact within.slots e ((Clients.welcoming_slots address c.clients).subset member)
    · rw [fresh, Clients.welcoming_quota]
      exact within.caller
  | prune now => cases asked

theorem stores_within (within : c.Within quotas) {b : Bucket} (known : b.quota ∈ quotas) (r : Request) :
    (r.stores c b).Within quotas := by
  cases r with
  | check ctx tier clock answers =>
    cases tier with
    | global => exact ⟨fun | .global => known | .admin => within.bucket .admin, within.caller, within.slots⟩
    | admin => exact ⟨fun | .global => within.bucket .global | .admin => known, within.caller, within.slots⟩
  | client ctx address now =>
    refine ⟨fun | .global => within.bucket .global | .admin => within.bucket .admin, ?_, ?_⟩
    · exact (Clients.welcoming_quota address c.clients).symm ▸ within.caller
    · intro e member
      rcases Clients.mem_seeing member with same | other
      · exact same ▸ known
      · exact within.slots e ((Clients.welcoming_slots address c.clients).subset other)
  | prune now => exact within

theorem passes_within (within : c.Within quotas) (r : Request) : (r.passes c).Within quotas := by
  cases r with
  | check ctx tier clock answers => exact within
  | client ctx address now => exact within
  | prune now =>
    refine ⟨fun | .global => within.bucket .global | .admin => within.bucket .admin, within.caller, ?_⟩
    intro e member
    exact within.slots e (List.mem_of_mem_filter member)

/-- A request leaves the quotas as they are. -/
theorem serve_within (within : c.Within quotas) (served : r.serve c = .ok next) : next.Within quotas := by
  rw [serve_eq] at served
  cases asked : r.asks c with
  | none =>
    simp only [asked, Except.ok.injEq] at served
    subst served
    exact passes_within within r
  | some asking =>
    obtain ⟨b, now⟩ := asking
    cases taken : b.take now with
    | error fault => simp [asked, taken, Except.map] at served
    | ok result =>
      simp only [asked, taken, Except.map, Except.ok.injEq] at served
      subst served
      apply stores_within within
      rw [Controller.take_quota taken]
      exact asks_within within asked

theorem run_within {start : Controller} (within : start.Within quotas) {past : List Request}
    (reached : run start past = .ok c) : c.Within quotas := by
  induction past generalizing c with
  | nil =>
    cases reached
    exact within
  | cons request past ih =>
    cases before : run start past with
    | error fault => simp [run, before, Except.bind] at reached
    | ok earlier =>
      simp only [run, before, Except.bind] at reached
      exact serve_within (ih before) reached

end Request

/-! ### Where admission fails -/

/-- Up to this time the sums of every take fit into words, whatever the configuration. -/
def lastTime : Span := Word.max64 - Span.ofSeconds 4294967296

section

variable {config : Config.RateLimit} {q : Quota}

theorem quotasOf_of (known : q ∈ quotasOf config) : ∃ rate burst, q = Quota.of rate burst := by
  rcases List.mem_cons.1 known with rfl | known
  · exact ⟨_, _, rfl⟩
  · rcases List.mem_cons.1 known with rfl | known
    · exact ⟨_, _, rfl⟩
    · exact ⟨_, _, List.mem_singleton.1 known⟩

/-- No configuration has a bucket that takes longer to fill up. -/
theorem tolerance_of_quotasOf (known : q ∈ quotasOf config) : q.tolerance ≤ Quota.longestRefill := by
  obtain ⟨rate, burst, rfl⟩ := quotasOf_of known
  exact Quota.tolerance_of_le rate burst

theorem Bucket.fits_of_early {b : Bucket} {now : Span} (known : b.quota ∈ quotasOf config)
    (early : now ≤ lastTime) : b.Fits now := by
  have refill := tolerance_of_quotasOf known
  have token := b.quota.interval_le_second
  simp only [Quota.longestRefill, lastTime, Fits, Span.ofSeconds, Span.second, Word.max32, Word.max64] at *
  unfold Span at *
  omega

namespace Request

/-- Where every quota leaves time for a token, no request before the last time fails. -/
theorem run_of_slow {start : Controller} (within : start.Within (quotasOf config))
    (slow : ∀ q ∈ quotasOf config, q.rate ≤ Span.second) {requests : List Request}
    (timely : ∀ r ∈ requests, r.time ≤ lastTime) : ∃ c, run start requests = .ok c := by
  induction requests with
  | nil => exact ⟨start, rfl⟩
  | cons request past ih =>
    obtain ⟨c, reached⟩ := ih fun r member => timely r (List.mem_cons_of_mem _ member)
    rw [run, reached, Except.bind]
    cases served : request.serve c with
    | ok next => exact ⟨next, rfl⟩
    | error fault =>
      obtain ⟨b, now, asked, failed⟩ := serve_error_iff.1 served
      have known := asks_within (run_within within reached) asked
      have early : now ≤ lastTime := Nat.le_trans (asks_le_time asked) (timely request List.mem_cons_self)
      rcases (Bucket.take_error_iff.1 failed).2 with ⟨wide, _⟩ | ⟨_, fast, _⟩
      · exact absurd (Bucket.fits_of_early known early) wide
      · exact absurd (slow b.quota known) (Nat.not_le_of_lt fast)

/-- Each quota is that of a bucket that a first request asks as soon as the limiters are made. -/
theorem exists_asking (cached : Bool) (made : Span) (known : q ∈ quotasOf config) :
    ∃ r : Request, r.time = made ∧ r.asks (.of config cached made) = some ({ quota := q, made }, made) := by
  have local_check : ∀ tier, ∃ r : Request, r.time = made ∧
      r.asks (.of config cached made) = some ((Controller.of config cached made).bucket tier, made) := by
    intro tier
    refine ⟨.check default tier ⟨default, made⟩ .absent, rfl, ?_⟩
    simp only [asks]
    split
    · rfl
    · rfl
  rcases List.mem_cons.1 known with rfl | known
  · exact local_check .global
  · rcases List.mem_cons.1 known with rfl | known
    · exact local_check .admin
    · cases List.mem_singleton.1 known
      refine ⟨.client default (.v4 0) made, rfl, ?_⟩
      have nobody := List.sublist_nil.1
        (Clients.welcoming_slots (.v4 0) (Controller.of config cached made).clients)
      rcases Clients.slot_bucket (.v4 0) made
        ((Controller.of config cached made).clients.welcoming (.v4 0)) with ⟨e, member, _⟩ | fresh
      · rw [nobody] at member
        cases member
      · rw [asks, fresh, Clients.welcoming_quota]
        rfl

end Request

end

/-- Where admission fails for want of numbers. No bucket takes longer to fill up than a word can tell. In
every run a request has no result in two cases only: the bucket that it takes a token from, which has one of
the three quotas, has one, and either a sum of the take does not fit into a word or the rate is above a
thousand million a second. So all runs before the last time have results if and only if none of the three
rates is as high as that. -/
theorem faults_by_rate (config : Config.RateLimit) (cached : Bool) (made : Span) (early : made ≤ lastTime) :
    (∀ q ∈ quotasOf config, q.tolerance ≤ Word.max64) ∧
    (∀ past c (request : Request) fault, Request.run (.of config cached made) past = .ok c →
      (request.serve c = .error fault ↔
        ∃ b now, request.asks c = some (b, now) ∧ b.quota ∈ quotasOf config ∧ b.Ready now ∧
          ((¬ b.Fits now ∧ fault = .overflow) ∨
            (b.Fits now ∧ Span.second < b.quota.rate ∧ fault = .divisionByZero)))) ∧
    ((∀ requests, (∀ r ∈ requests, made ≤ r.time ∧ r.time ≤ lastTime) →
        ∃ c, Request.run (.of config cached made) requests = .ok c) ↔
      ∀ q ∈ quotasOf config, q.rate ≤ Span.second) := by
  have start := within_of config cached made
  refine ⟨fun q known => Nat.le_trans (tolerance_of_quotasOf known) (by decide), ?_, ?_, ?_⟩
  · intro past c request fault reached
    have within := Request.run_within start reached
    rw [Request.serve_error_iff]
    constructor
    · intro failed
      obtain ⟨b, now, asked, failed⟩ := failed
      exact ⟨b, now, asked, Request.asks_within within asked, Bucket.take_error_iff.1 failed⟩
    · intro fails
      obtain ⟨b, now, asked, _, ends⟩ := fails
      exact ⟨b, now, asked, Bucket.take_error_iff.2 ends⟩
  · intro always q known
    apply Nat.le_of_not_lt
    intro fast
    obtain ⟨r, time, asked⟩ := Request.exists_asking cached made known
    have failed : r.serve (.of config cached made) = .error .divisionByZero := by
      apply Request.serve_error_iff.2
      refine ⟨_, _, asked, Bucket.take_error_iff.2 ⟨Bucket.ready_of_unused rfl made, .inr ?_⟩⟩
      exact ⟨Bucket.fits_of_early known early, fast, rfl⟩
    have timely : ∀ r' ∈ [r], made ≤ r'.time ∧ r'.time ≤ lastTime := by
      intro r' member
      rw [List.mem_singleton.1 member, time]
      exact ⟨Nat.le_refl _, early⟩
    obtain ⟨c, reached⟩ := always [r] timely
    rw [Request.run, Request.run, Except.bind, failed] at reached
    cases reached
  · intro slow requests timely
    exact Request.run_of_slow start slow fun r member => (timely r member).2

/-- Settings that name a rate for which no bucket has time. -/
def hurried : Config.Settings where
  server := { apiKey := "key" }
  rateLimit := { globalRate := 2000000000 }

/-- The settings are accepted, and the first request of the tier has no result. -/
theorem hurried_settings_fail :
    hurried.fault? = none ∧
      (Request.check { actor := "ops", correlationId := "c-1" } .global ⟨.ofNanos 0, 0⟩ .absent).serve
        (.of hurried.rateLimit false 0) = .error .divisionByZero :=
  ⟨by decide +kernel, rfl⟩

/-- With the rates that are there when nothing is said no request fails. -/
theorem faults_by_rate_usual :
    0 ≤ lastTime ∧ ∀ requests, (∀ r ∈ requests, 0 ≤ r.time ∧ r.time ≤ lastTime) →
      ∃ c, Request.run (.of {} true 0) requests = .ok c := by
  have early : (0 : Span) ≤ lastTime := Nat.zero_le _
  obtain ⟨_, _, always⟩ := faults_by_rate {} true 0 early
  refine ⟨early, always.2 ?_⟩
  decide +kernel

end HostControl.Admission
