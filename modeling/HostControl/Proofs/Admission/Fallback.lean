/-
Module: HostControl.Proofs.Admission.Fallback
Purpose: The shared counter and the bucket of a tier do not get in each other's way. Each request goes to one of the
  two, as the cache answers to it. So the requests that got no count have the decisions that they would have where
  there is no cache, those that got one have the decisions of the counter, and the tiers are apart.
  The requests of a run stand in the order in which their increments came to an end. Their clocks may stand in
  another order, so requests that are under way at the same time are covered.
Main exports: Ask, Ask.alone, Ask.serve, Ask.after, Ask.record, serve_eq, failures, falls_back_cleanly
-/
import HostControl.Proofs.Admission.Counter

namespace HostControl.Admission

/-! ### Buckets of the tiers -/

namespace Controller

variable {tier other : Tier} {b : Bucket} {c : Controller} {now : Span}

@[simp] theorem bucket_setBucket (tier : Tier) (b : Bucket) (c : Controller) :
    (c.setBucket tier b).bucket tier = b := by
  cases tier <;> rfl

theorem bucket_setBucket_of_ne (apart : other ≠ tier) (b : Bucket) (c : Controller) :
    (c.setBucket tier b).bucket other = c.bucket other := by
  cases tier <;> cases other <;> first | rfl | exact absurd rfl apart

@[simp] theorem setBucket_bucket (tier : Tier) (c : Controller) : c.setBucket tier (c.bucket tier) = c := by
  cases tier <;> rfl

@[simp] theorem setBucket_distributed (tier : Tier) (b : Bucket) (c : Controller) :
    (c.setBucket tier b).distributed = c.distributed := by
  cases tier <;> rfl

/-- The limiters without their cache. -/
def uncached (c : Controller) : Controller := { c with distributed := false }

theorem uncached_of (config : Config.RateLimit) (cached : Bool) (made : Span) :
    (Controller.of config cached made).uncached = .of config false made := rfl

end Controller

/-! ### Requests of the tiers -/

/-- A request of a tier: who makes it, when, and what the cache answers to it. -/
structure Ask where
  ctx : Context
  tier : Tier
  clock : Clock
  answers : Cache.Answers

namespace Ask

variable {a : Ask} {c : Controller} {count : Int}

/-- The count that the request is told, or how the cache failed. -/
def told (a : Ask) : Except Cache.Error Int := (a.answers.increment (windowKey a.tier a.clock.now)).2

/-- The clock when the increment of the request has come to an end. -/
def settledAt (a : Ask) : Clock :=
  a.clock.forward ((a.answers.increment (windowKey a.tier a.clock.now)).1.wait a.clock.elapsed)

/-- Whether the increment failed. -/
def failed (a : Ask) : Bool :=
  match a.told with
  | .ok _ => false
  | .error _ => true

/-- The same request without a cache, made when the increment failed. -/
def alone (a : Ask) : Ask := { a with clock := a.settledAt, answers := .absent }

/-- The decision on a request, and the limiters after it. A check without result leaves them as they were. -/
def serve (a : Ask) (c : Controller) : Except ArithmeticFault Decision × Controller :=
  match c.check a.ctx a.tier a.clock a.answers with
  | .ok (ruling, next) => (.ok ruling.decision, next)
  | .error fault => (.error fault, c)

/-- The limiters after requests, the latest first. -/
def after (start : Controller) : List Ask → Controller
  | [] => start
  | a :: past => (a.serve (after start past)).2

/-- The requests of a run and the decisions on them, the latest first. -/
def record (start : Controller) : List Ask → List (Ask × Except ArithmeticFault Decision)
  | [] => []
  | a :: past => (a, (a.serve (after start past)).1) :: record start past

/-- The decision of a tier's own bucket, and the limiters after it. -/
def serveOwn (tier : Tier) (now : Span) (c : Controller) : Except ArithmeticFault Decision × Controller :=
  (((c.bucket tier).take now).map fun taken => .ofTaking tier.label (c.bucket tier).quota.burst taken.1,
    c.setBucket tier ((c.bucket tier).after [now]))

/-! ### One request -/

theorem checkLocal_eq (tier : Tier) (now : Span) (c : Controller) :
    c.checkLocal tier now = ((c.bucket tier).take now).map fun taken =>
      (.ofTaking tier.label (c.bucket tier).quota.burst taken.1, c.setBucket tier taken.2) := by
  unfold Controller.checkLocal
  cases taken : (c.bucket tier).take now with
  | error fault => simp only [taken, bind, Except.bind, Except.map]
  | ok result => simp only [taken, bind, Except.bind, Except.map, pure, Except.pure]

/-- A request is decided by the count that it is told, or else by the own bucket of its tier. -/
theorem serve_eq (a : Ask) (c : Controller) :
    a.serve c =
      if c.distributed then
        match a.told with
        | .ok count => (.ok (.ofCount a.tier.label (c.bucket a.tier).quota.rate a.clock.now count), c)
        | .error _ => serveOwn a.tier a.settledAt.elapsed c
      else serveOwn a.tier a.clock.elapsed c := by
  have own : ∀ now, serveOwn a.tier now c =
      match c.checkLocal a.tier now with
      | .ok (decision, next) => (.ok decision, next)
      | .error fault => (.error fault, c) := by
    intro now
    rw [checkLocal_eq, serveOwn, Bucket.after, Bucket.after]
    cases (c.bucket a.tier).take now with
    | ok taken => rfl
    | error fault => simp [Except.map]
  cases shared : c.distributed with
  | false =>
    simp only [serve, Controller.check, shared, own, Bool.false_eq_true, if_false]
    cases c.checkLocal a.tier a.clock.elapsed <;> rfl
  | true =>
    cases answered : a.told with
    | ok count =>
      have counts : c.CountsAt fun tier => (c.bucket tier).quota.rate := ⟨shared, fun _ => rfl⟩
      obtain ⟨ruling, checked, decided, _⟩ := Controller.check_of_count a.ctx counts answered
      rw [serve, checked, if_pos rfl]
      exact congrArg (fun decision => (Except.ok decision, c)) decided
    | error e =>
      rw [told] at answered
      simp only [serve, Controller.check, Controller.countShared, shared, answered, own, if_true, settledAt,
        Clock.forward]
      cases c.checkLocal a.tier (a.clock.elapsed +
          (a.answers.increment (windowKey a.tier a.clock.now)).1.wait a.clock.elapsed) <;> rfl

/-- A request that is told a count takes no token, and neither the bucket of its tier nor the end of the counter
matter to it. -/
theorem serve_of_count (counted : c.distributed = true) (answered : a.told = .ok count) :
    a.serve c = (.ok (.ofCount a.tier.label (c.bucket a.tier).quota.rate a.clock.now count), c) := by
  rw [serve_eq, if_pos counted, answered]

theorem serve_of_failure (counted : c.distributed = true) (failed : a.failed = true) :
    a.serve c = serveOwn a.tier a.settledAt.elapsed c := by
  unfold Ask.failed at failed
  rw [serve_eq, if_pos counted]
  cases answered : a.told with
  | ok count =>
    rw [answered] at failed
    cases failed
  | error e => rfl

theorem serve_of_uncached (local_only : c.distributed = false) :
    a.serve c = serveOwn a.tier a.clock.elapsed c := by
  rw [serve_eq, local_only, if_neg Bool.false_ne_true]

/-- The own bucket of a tier decides by itself. -/
theorem serveOwn_congr {tier : Tier} {c d : Controller} (same : c.bucket tier = d.bucket tier) (now : Span) :
    (serveOwn tier now c).1 = (serveOwn tier now d).1 ∧
      (serveOwn tier now c).2.bucket tier = (serveOwn tier now d).2.bucket tier := by
  rw [serveOwn, serveOwn, same]
  simp

/-- A request changes no bucket but that of its tier. -/
theorem serve_other {tier : Tier} (apart : tier ≠ a.tier) (c : Controller) :
    (a.serve c).2.bucket tier = c.bucket tier := by
  have own : ∀ now, (serveOwn a.tier now c).2.bucket tier = c.bucket tier := fun now =>
    Controller.bucket_setBucket_of_ne apart _ c
  rw [serve_eq]
  split
  · split
    · rfl
    · exact own _
  · exact own _

/-- A request changes neither the quotas nor whether there is a cache. -/
theorem serve_keeps (a : Ask) (c : Controller) :
    (a.serve c).2.distributed = c.distributed ∧
      ∀ tier, ((a.serve c).2.bucket tier).quota = (c.bucket tier).quota := by
  have own : ∀ now, (serveOwn a.tier now c).2.distributed = c.distributed ∧
      ∀ tier, ((serveOwn a.tier now c).2.bucket tier).quota = (c.bucket tier).quota := by
    intro now
    refine ⟨Controller.setBucket_distributed _ _ _, fun tier => ?_⟩
    by_cases same : tier = a.tier
    · subst same
      rw [serveOwn, Controller.bucket_setBucket, Bucket.after_quota]
    · rw [serveOwn, Controller.bucket_setBucket_of_ne same]
  rw [serve_eq]
  split
  · split
    · exact ⟨rfl, fun _ => rfl⟩
    · exact own _
  · exact own _

/-- What a request comes to depends on the bucket of its tier only. -/
theorem serve_congr {c d : Controller} (same : c.bucket a.tier = d.bucket a.tier)
    (alike : c.distributed = d.distributed) :
    (a.serve c).1 = (a.serve d).1 ∧ (a.serve c).2.bucket a.tier = (a.serve d).2.bucket a.tier := by
  rw [serve_eq, serve_eq, alike]
  split
  · split
    · exact ⟨by rw [same], same⟩
    · exact serveOwn_congr same _
  · exact serveOwn_congr same _

/-- A request whose increment failed comes to what it comes to at that instant where there is no cache. -/
theorem serve_alone {c d : Controller} (counted : c.distributed = true) (local_only : d.distributed = false)
    (same : c.bucket a.tier = d.bucket a.tier) (failed : a.failed = true) :
    (a.serve c).1 = (a.alone.serve d).1 ∧
      (a.serve c).2.bucket a.tier = (a.alone.serve d).2.bucket a.tier := by
  rw [serve_of_failure counted failed, serve_of_uncached local_only]
  exact serveOwn_congr same _

/-! ### Runs -/

variable {start : Controller} {tier : Tier}

theorem after_keeps (start : Controller) (asks : List Ask) :
    (after start asks).distributed = start.distributed ∧
      ∀ tier, ((after start asks).bucket tier).quota = (start.bucket tier).quota := by
  induction asks with
  | nil => exact ⟨rfl, fun _ => rfl⟩
  | cons a past ih =>
    obtain ⟨distributed, quota⟩ := a.serve_keeps (after start past)
    exact ⟨distributed.trans ih.1, fun tier => (quota tier).trans (ih.2 tier)⟩

/-- The decisions on some of the requests of a run. -/
def decisionsOn (which : Ask → Bool) (start : Controller) (asks : List Ask) :
    List (Except ArithmeticFault Decision) :=
  ((record start asks).filter fun e => which e.1).map (·.2)

/-- The decisions on all requests of a run. -/
def decisions (start : Controller) (asks : List Ask) : List (Except ArithmeticFault Decision) :=
  (record start asks).map (·.2)

theorem decisionsOn_cons (which : Ask → Bool) (start : Controller) (a : Ask) (past : List Ask) :
    decisionsOn which start (a :: past) =
      if which a then (a.serve (after start past)).1 :: decisionsOn which start past
      else decisionsOn which start past := by
  rw [decisionsOn, record, List.filter_cons]
  split
  · rw [List.map_cons, decisionsOn]
  · rw [decisionsOn]

/-- Whether a request is one of a tier whose increment failed. -/
def fallsBack (tier : Tier) (a : Ask) : Bool := a.tier = tier && a.failed

/-- The requests of a tier whose increment failed come to what they come to by themselves, at these instants,
where there is no cache; and the others take nothing from the bucket. -/
theorem decisionsOn_fallsBack (counted : start.distributed = true) (tier : Tier) (asks : List Ask) :
    (after start asks).bucket tier =
        (after start.uncached ((asks.filter (fallsBack tier)).map alone)).bucket tier ∧
      decisionsOn (fallsBack tier) start asks =
        decisions start.uncached ((asks.filter (fallsBack tier)).map alone) := by
  induction asks with
  | nil => exact ⟨by cases tier <;> rfl, rfl⟩
  | cons a past ih =>
    have shared := (after_keeps start past).1.trans counted
    have local_only := (after_keeps start.uncached ((past.filter (fallsBack tier)).map alone)).1
    rw [decisionsOn_cons, List.filter_cons]
    by_cases falls : fallsBack tier a = true
    · obtain ⟨own, failed⟩ := Bool.and_eq_true_iff.1 falls
      obtain rfl := of_decide_eq_true own
      obtain ⟨decision, bucket⟩ := serve_alone shared local_only ih.1 failed
      rw [if_pos falls, if_pos falls, List.map_cons]
      exact ⟨bucket, List.cons_eq_cons.2 ⟨decision, ih.2⟩⟩
    · rw [if_neg falls, if_neg falls]
      refine ⟨?_, ih.2⟩
      rw [← ih.1]
      by_cases own : tier = a.tier
      · subst own
        cases answered : a.told with
        | ok count => rw [after, serve_of_count shared answered]
        | error e => exact absurd (by simp [fallsBack, failed, answered]) falls
      · exact serve_other own _

/-- The requests of a tier come to what they come to where the other tier has none. -/
theorem decisionsOn_tier (start : Controller) (tier : Tier) (asks : List Ask) :
    (after start asks).bucket tier = (after start (asks.filter (·.tier = tier))).bucket tier ∧
      decisionsOn (·.tier = tier) start asks = decisions start (asks.filter (·.tier = tier)) := by
  induction asks with
  | nil => exact ⟨rfl, rfl⟩
  | cons a past ih =>
    have alike : (after start past).distributed = (after start (past.filter (·.tier = tier))).distributed :=
      (after_keeps start past).1.trans (after_keeps start _).1.symm
    rw [decisionsOn_cons, List.filter_cons]
    by_cases own : a.tier = tier
    · subst own
      obtain ⟨decision, bucket⟩ := serve_congr ih.1 alike
      rw [if_pos (decide_eq_true rfl), if_pos (decide_eq_true rfl)]
      exact ⟨bucket, List.cons_eq_cons.2 ⟨decision, ih.2⟩⟩
    · rw [if_neg (by simpa using own), if_neg (by simpa using own)]
      exact ⟨(serve_other (Ne.symm own) _).trans ih.1, ih.2⟩

/-- The keys under which the requests of two tiers are counted differ at all times. -/
theorem windowKey_ne {other : Tier} (apart : tier ≠ other) (now later : Instant) :
    windowKey tier now ≠ windowKey other later := by
  rw [windowKey_eq, windowKey_eq]
  intro same
  exact apart (congrArg Window.tier (key_injective same))

/-- Falling back to the own buckets is a switch for each request. In every run of a controller with a cache, the
requests of a tier whose increment failed have, in order, the decisions that a controller without a cache gives to
these requests alone, made when their increments failed. A request that is told a count is decided by the count
alone, at sixty times the rate of its tier, and leaves all buckets as they are. And each tier has the decisions
that it has when the other one is asked for nothing, under keys that the other one never uses. -/
theorem falls_back_cleanly (start : Controller) (counted : start.distributed = true) (asks : List Ask) :
    (∀ tier, decisionsOn (fallsBack tier) start asks =
      decisions start.uncached ((asks.filter (fallsBack tier)).map alone)) ∧
    (∀ config cached made, start = .of config cached made → start.uncached = .of config false made) ∧
    (∀ later a past count, asks = later ++ a :: past → a.told = .ok count →
      ∃ d, a.serve (after start past) = (.ok d, after start past) ∧
        d = .ofCount a.tier.label (start.bucket a.tier).quota.rate a.clock.now count ∧
        (d.allowed = true ↔ max count 0 ≤ ((start.bucket a.tier).quota.rate * 60 : Nat))) ∧
    (∀ tier, decisionsOn (·.tier = tier) start asks = decisions start (asks.filter (·.tier = tier))) ∧
    ∀ tier other now later, tier ≠ other → windowKey tier now ≠ windowKey other later := by
  refine ⟨fun tier => (decisionsOn_fallsBack counted tier asks).2, ?_, ?_,
    fun tier => (decisionsOn_tier start tier asks).2, fun tier other now later apart => windowKey_ne apart now later⟩
  · rintro config cached made rfl
    exact Controller.uncached_of config cached made
  · intro later a past count parts answered
    have shared := (after_keeps start past).1.trans counted
    refine ⟨_, serve_of_count shared answered, by rw [(after_keeps start past).2], ?_⟩
    rw [(after_keeps start past).2]
    simp only [Decision.ofCount, decide_eq_true_eq]
    omega

/-- A cache whose increments time out after a delay. -/
def lost (delay : Span) : Cache.Answers :=
  { Cache.Answers.absent with increment := fun _ => (some delay, .error (.timeout "INCR" 50)) }

/-- A cache that tells one count. -/
def counting (count : Int) : Cache.Answers := { Cache.Answers.absent with increment := fun _ => (none, .ok count) }

/-- Requests, the latest first, of which every other one is told a count. -/
def mixed : List Ask :=
  [⟨default, .global, ⟨.ofNanos 0, Span.ofMillis 300⟩, lost (Span.ofMillis 50)⟩,
    ⟨default, .admin, ⟨.ofNanos 0, Span.ofMillis 200⟩, counting (-1)⟩,
    ⟨default, .global, ⟨.ofNanos 0, 0⟩, lost (Span.ofMillis 50)⟩,
    ⟨default, .global, ⟨.ofNanos 0, Span.ofMillis 10⟩, counting 61⟩]

/-- Of two global requests without a count the second has to wait, as it would alone. The one before them was told a
count beyond the limit: it is refused, and takes no token from them. -/
theorem falls_back_cleanly_mixed :
    (Controller.of { globalRate := 1, burst := 1 } true 0).distributed = true ∧
    decisionsOn (fallsBack .global) (.of { globalRate := 1, burst := 1 } true 0) mixed =
      decisions (.of { globalRate := 1, burst := 1 } false 0) ((mixed.filter (fallsBack .global)).map alone) ∧
    (decisions (.of { globalRate := 1, burst := 1 } false 0) ((mixed.filter (fallsBack .global)).map alone)).map
      Except.toOption = [some ⟨false, "global", 1, 0, 1⟩, some ⟨true, "global", 1, 0, 0⟩] ∧
    ∃ d, (mixed[3].serve (.of { globalRate := 1, burst := 1 } true 0)).1 = .ok d ∧ d.allowed = false := by
  have counted : (Controller.of { globalRate := 1, burst := 1 } true 0).distributed = true := rfl
  obtain ⟨alone_too, without, by_count, _⟩ := falls_back_cleanly _ counted mixed
  refine ⟨counted, ?_, by decide +kernel, ?_⟩
  · rw [← without _ _ _ rfl]
    exact alone_too .global
  · obtain ⟨d, served, _, allowed⟩ := by_count (mixed.take 3) mixed[3] [] 61 rfl rfl
    refine ⟨d, congrArg Prod.fst served, ?_⟩
    rw [Bool.eq_false_iff, ne_eq, allowed]
    decide

end Ask

end HostControl.Admission
