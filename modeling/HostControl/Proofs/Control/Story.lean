/-
Module: HostControl.Proofs.Control.Story
Purpose: What a request tells in the journal, and how that goes with what its caller is told. Whatever comes between
  its steps, a request that was answered has one record, which is the last thing that it tells and agrees with the
  response. A request without an answer is one that reached a tier whose limiter has none.
Main exports: Request.Passes, Request.Tells, Step.tells, Request.Goes, Recorded, denialEvent, refusalEvent,
  FirstDenial, Story, Tells.story, Session.Fails, charge_error_iff, requests_tell_one_story
-/
import HostControl.Proofs.Admission.Faults
import HostControl.Proofs.Control.Events
import HostControl.Proofs.Control.Floor

namespace HostControl.Control

open Admission (Tier Decision)
open Admission.Controller (CountsFor)

/-! ### What a request tells -/

theorem Session.recordRequest_journal (caller : Caller) (op : Operation) (error : Option String) (began : Span)
    (s : Session) :
    (s.recordRequest caller op error began).journal = s.journal ++
      [.audit ⟨s.clock.now, .request caller.context op.name op.resource error (s.clock.elapsed - began)⟩] := rfl

/-- The text in the record of a request that was carried out. -/
def errorOf : Except Error Payload → Option String
  | .ok _ => none
  | .error e => some e.message

/-- Carrying an operation out adds its effects and the record of what it came to, and leaves the limiters alone. -/
theorem Session.carryOut_tells (caller : Caller) (op : Operation) (began : Span) (around : Surroundings)
    (s : Session) :
    ∃ (result : Except Error Payload) (body : List Effect) (time : Instant) (elapsed : Span),
      (s.carryOut caller op began around).1 = answer op result ∧ (∀ e ∈ body, e.OfBody) ∧
      (s.carryOut caller op began around).2.journal = s.journal ++
        (body ++ [.audit ⟨time, .request caller.context op.name op.resource (errorOf result) elapsed⟩]) ∧
      (s.carryOut caller op began around).2.plane.admission = s.plane.admission := by
  obtain ⟨kept, body, grown, effects⟩ := perform_body caller op around s
  have recorded := recordRequest_journal caller op (errorOf (s.perform caller op around).1) began
    (s.perform caller op around).2
  rw [grown, List.append_assoc] at recorded
  exact ⟨_, body, _, _, rfl, effects, recorded, kept⟩

namespace Request

variable {r r' : Request} {s s' : Session} {around : Surroundings} {tier : Tier} {asked left : List Tier}
  {decision : Decision} {passed : List Decision} {own more : List Effect} {commands : List Cache.Command}

/-- Effects of a request that tiers have let pass: each of them was charged once, in order, nothing was recorded,
and the cache counted for none but them. -/
structure Passes (asked : List Tier) (passed : List Decision) (own : List Effect) : Prop where
  admitted : Admitted asked passed
  charges : own.filterMap Effect.decision? = passed
  silent : own.filterMap Effect.event? = []
  counts : ∀ command, .command command ∈ own → ∃ tier ∈ asked, CountsFor tier command

theorem Passes.nil : Passes [] [] [] := ⟨⟨rfl, nofun⟩, rfl, rfl, nofun⟩

theorem Passes.eventsOf (passes : Passes asked passed own) (action : String) : Effect.eventsOf action own = [] := by
  rw [Effect.eventsOf, passes.silent]
  rfl

theorem Passes.admitted_append {rest : List Effect} (passes : Passes asked passed own)
    (uncharged : rest.filterMap Effect.decision? = []) : Admitted asked ((own ++ rest).filterMap Effect.decision?) := by
  rw [List.filterMap_append, uncharged, List.append_nil, passes.charges]
  exact passes.admitted

/-- The cache counts for one tier more. -/
theorem Passes.counts_snoc (passes : Passes asked passed own) (counts : ∀ command ∈ commands, CountsFor tier command)
    (rest : List Effect) (others : ∀ command, .command command ∉ rest) :
    ∀ command, .command command ∈ own ++ (commands.map .command ++ rest) →
      ∃ t ∈ asked ++ [tier], CountsFor t command := by
  intro command member
  rcases List.mem_append.1 member with before | last
  · obtain ⟨t, listed, counted⟩ := passes.counts command before
    exact ⟨t, List.mem_append_left _ listed, counted⟩
  · rcases List.mem_append.1 last with sent | other
    · obtain ⟨_, listed, same⟩ := List.mem_map.1 sent
      cases same
      exact ⟨tier, by simp, counts command listed⟩
    · exact absurd other (others command)

theorem Passes.charges_snoc (passes : Passes asked passed own) (commands : List Cache.Command) (rest : List Effect) :
    (own ++ (commands.map Effect.command ++ Effect.charge decision :: rest)).filterMap Effect.decision? =
      passed ++ decision :: rest.filterMap Effect.decision? := by
  rw [List.filterMap_append, passes.charges, List.filterMap_append, Session.uncharged _ fun _ => rfl]
  rfl

theorem Passes.snoc (passes : Passes asked passed own) (counts : ∀ command ∈ commands, CountsFor tier command)
    (scope : decision.scope = tier.label) (allowed : decision.allowed = true) :
    Passes (asked ++ [tier]) (passed ++ [decision]) (own ++ (commands.map .command ++ [.charge decision])) where
  admitted := passes.admitted.snoc scope allowed
  charges := passes.charges_snoc commands []
  silent := by
    have quiet : (commands.map Effect.command).filterMap Effect.event? = [] := by
      simp [List.filterMap_map, Function.comp_def, Effect.event?]
    rw [List.filterMap_append, passes.silent, List.filterMap_append, quiet]
    rfl
  counts := passes.counts_snoc counts _ (by simp)

/-- What a request has told, wherever it stands. -/
inductive Tells (r : Request) : List Effect → Prop where
  | asking {asked left : List Tier} {own : List Effect} (stands : r.stage = .asking left)
      (all : r.op.opClass.tiers = asked ++ left) (passes : Passes asked r.decisions own) : Tells r own
  | lost {fault : Admission.ArithmeticFault} {asked left : List Tier} {own : List Effect}
      (stands : r.stage = .lost fault) (all : r.op.opClass.tiers = asked ++ left)
      (passes : Passes asked r.decisions own) : Tells r own
  | denied {asked left : List Tier} {tier : Tier} {passed : List Decision} {denial : Decision} {front : List Effect}
      {commands : List Cache.Command} {time later : Instant} {elapsed : Span}
      (stands : r.stage = .refused (.rateLimited denial)) (all : r.op.opClass.tiers = asked ++ tier :: left)
      (passes : Passes asked passed front) (counts : ∀ command ∈ commands, CountsFor tier command)
      (scope : denial.scope = tier.label) (refused : denial.allowed = false) :
      Tells r (front ++ (commands.map .command ++ [.charge denial,
          .audit ⟨time, .rateLimit r.caller.context denial.scope denial.limit⟩]) ++
        [.audit ⟨later, .request r.caller.context r.op.name r.op.resource (some Response.rateLimitText) elapsed⟩])
  | turned {passed : List Decision} {front : List Effect} {time later : Instant} {elapsed : Span}
      (stands : r.stage = .refused (.failure .unauthorized (Session.credentialFault r.caller)))
      (passes : Passes r.op.opClass.tiers passed front) :
      Tells r (front ++ [.audit ⟨time, .authFailure r.caller.context (Session.credentialFault r.caller)⟩] ++
        [.audit ⟨later, .request r.caller.context r.op.name r.op.resource
          (some (Session.credentialFault r.caller)) elapsed⟩])
  | done {result : Except Error Payload} {passed : List Decision} {front body : List Effect} {time : Instant}
      {elapsed : Span} (stands : r.stage = .done (Session.answer r.op result))
      (passes : Passes r.op.opClass.tiers passed front) (effects : ∀ e ∈ body, Effect.OfBody e) :
      Tells r (front ++ body ++
        [.audit ⟨time, .request r.caller.context r.op.name r.op.resource (errorOf result) elapsed⟩])

theorem Tells.of_asking (tells : r.Tells own) (stands : r.stage = .asking left) :
    ∃ asked, r.op.opClass.tiers = asked ++ left ∧ Passes asked r.decisions own := by
  cases tells with
  | asking there all passes =>
    cases there.symm.trans stands
    exact ⟨_, all, passes⟩
  | lost there | denied there | turned there | done there => cases there.symm.trans stands

/-- A step of a request goes on with what it tells. The buckets of tiers that it does not charge stay as they are. -/
theorem Step.tells (tells : r.Tells own) (step : Step around r s r' s') :
    ∃ more, s'.journal = s.journal ++ more ∧ r'.Tells (own ++ more) ∧
      ∀ tier, Effect.Uncharged tier more →
        s'.plane.admission.bucket tier = s.plane.admission.bucket tier := by
  have untouched {t : Tier} {d : Decision} {commands : List Cache.Command} {rest : List Effect} {a b : Session}
      (scope : d.scope = t.label)
      (others : ∀ other, other ≠ t → a.plane.admission.bucket other = b.plane.admission.bucket other) (tier : Tier)
      (free : Effect.Uncharged tier (commands.map .command ++ .charge d :: rest)) :
      a.plane.admission.bucket tier = b.plane.admission.bucket tier := by
    apply others
    rintro rfl
    exact free d (List.mem_filterMap.2 ⟨.charge d, by simp, rfl⟩) scope
  cases step with
  | ended ended => exact ⟨[], by simp, by simpa using tells, fun _ _ => rfl⟩
  | carried ready =>
    obtain ⟨stands, _⟩ := ready_iff.1 ready
    obtain ⟨asked, all, passes⟩ := tells.of_asking stands
    rw [List.append_nil] at all
    obtain ⟨result, body, time, elapsed, answered, effects, grown, kept⟩ :=
      Session.carryOut_tells r.caller r.op r.began around s
    refine ⟨_, grown, ?_, fun tier _ => congrArg (·.bucket tier) kept⟩
    rw [answered, ← List.append_assoc]
    exact .done rfl (all ▸ passes) effects
  | turned stands wrong =>
    obtain ⟨asked, all, passes⟩ := tells.of_asking stands
    rw [List.append_nil] at all
    refine ⟨_, List.append_assoc .., ?_, fun _ _ => rfl⟩
    rw [← List.append_assoc]
    exact .turned rfl (all ▸ passes)
  | lost stands failed =>
    obtain ⟨asked, all, passes⟩ := tells.of_asking stands
    refine ⟨[], by simp, ?_, fun _ _ => rfl⟩
    rw [List.append_nil]
    exact .lost rfl all passes
  | @allowed tier left decision next stands asked allowed =>
    obtain ⟨before, all, passes⟩ := tells.of_asking stands
    obtain ⟨scope, _⟩ := Session.chargeTier_spec asked
    obtain ⟨commands, time, counts, grown, others⟩ := Session.chargeTier_tells asked
    simp only [Admission.Controller.denialEvents, allowed, if_true, List.map_nil] at grown
    refine ⟨_, grown, .asking rfl ?_ (passes.snoc counts scope allowed), untouched scope others⟩
    rw [all, List.append_assoc]
    rfl
  | @denied tier left decision next stands asked denied =>
    obtain ⟨before, all, passes⟩ := tells.of_asking stands
    obtain ⟨scope, _⟩ := Session.chargeTier_spec asked
    obtain ⟨commands, time, counts, grown, others⟩ := Session.chargeTier_tells asked
    simp only [Admission.Controller.denialEvents, denied, Bool.false_eq_true, if_false] at grown
    have recorded := next.recordRequest_journal r.caller r.op (some Response.rateLimitText) r.began
    rw [grown, List.append_assoc] at recorded
    refine ⟨_, recorded, ?_, ?_⟩
    · rw [← List.append_assoc]
      exact .denied rfl all passes counts scope denied
    · rw [List.append_assoc]
      exact untouched scope others

/-- Steps of a request with anything in between: each may find another session and other surroundings than the one
before left behind. What they add to the journal is the request's own. -/
inductive Goes : Request → List Effect → Request → Prop where
  | refl {r : Request} : Goes r [] r
  | step {r r' last : Request} {s s' : Session} {around : Surroundings} {more rest : List Effect}
      (step : Step around r s r' s') (grown : s'.journal = s.journal ++ more) (goes : Goes r' rest last) :
      Goes r (more ++ rest) last

theorem Goes.keeps (goes : Goes r own r') : r'.caller = r.caller ∧ r'.op = r.op := by
  induction goes with
  | refl => exact ⟨rfl, rfl⟩
  | step step _ _ ih => cases step <;> exact ih

theorem Tells.goes (tells : r.Tells own) (goes : Goes r more r') : r'.Tells (own ++ more) := by
  induction goes generalizing own with
  | refl => rwa [List.append_nil]
  | step step grown goes ih =>
    obtain ⟨_, grown', tells', _⟩ := step.tells tells
    cases List.append_cancel_left (grown.symm.trans grown')
    rw [← List.append_assoc]
    exact ih tells'

theorem tells_arriving (caller : Caller) (op : Operation) (began : Span) : (arriving caller op began).Tells [] :=
  .asking rfl rfl .nil

/-- Steps with nothing in between are steps. -/
theorem goes_advances (tells : r.Tells own) (around : Surroundings) (n : Nat) (s : Session) :
    ∃ more, (advances around n (r, s)).2.journal = s.journal ++ more ∧
      Goes r more (advances around n (r, s)).1 ∧
      ∀ tier, Effect.Uncharged tier more →
        (advances around n (r, s)).2.plane.admission.bucket tier = s.plane.admission.bucket tier := by
  induction n generalizing r s own with
  | zero => exact ⟨[], by simp [advances], .refl, fun _ _ => rfl⟩
  | succ n ih =>
    have step := step_advance around r s
    obtain ⟨first, grown, tells', kept⟩ := step.tells tells
    obtain ⟨rest, grown', goes, kept'⟩ := ih tells' (r.advance around s).2
    refine ⟨first ++ rest, ?_, .step step grown goes, ?_⟩
    · rw [advances, grown', grown, List.append_assoc]
    · intro tier free
      obtain ⟨before, later⟩ := Effect.uncharged_append.1 free
      exact (kept' tier later).trans (kept tier before)

/-- The steps of an operation, and the response that it ends with. -/
theorem exists_goes_of_run {caller : Caller} {op : Operation} {response : Response}
    (ran : s.run caller op around = .ok (response, s')) :
    ∃ own r, Goes (arriving caller op s.clock.elapsed) own r ∧
      (r.stage = .refused response ∨ r.stage = .done response) ∧ s'.journal = s.journal ++ own ∧
      ∀ tier, Effect.Uncharged tier own →
        s'.plane.admission.bucket tier = s.plane.admission.bucket tier := by
  have ended := outcome_advances caller op around s
  obtain ⟨own, grown, goes, kept⟩ :=
    goes_advances (tells_arriving caller op s.clock.elapsed) around (op.opClass.tiers.length + 1) s
  rw [ran] at ended
  generalize advances around (op.opClass.tiers.length + 1) (arriving caller op s.clock.elapsed, s) = last at *
  obtain ⟨r, next⟩ := last
  unfold outcome at ended
  cases stands : r.stage with
  | asking | lost => simp [stands] at ended
  | refused told | done told =>
    simp only [stands, Option.some.injEq, Except.ok.injEq, Prod.mk.injEq] at ended
    obtain ⟨rfl, rfl⟩ := ended
    exact ⟨own, r, goes, by simp [stands], grown, kept⟩

end Request

/-! ### The story -/

/-- The record of a request whose caller got a response. -/
structure Recorded (caller : Caller) (op : Operation) (response : Response) (event : Audit.Event) : Prop where
  action : event.action = "http_request"
  actor : event.actor = caller.context.actor
  resource : event.resource = op.resource
  address : event.maskedAddress = (caller.context.address.map Address.masked).getD Audit.unknownAddress
  correlation : event.correlationId = some caller.context.correlationId
  success : event.success = response.success
  error : event.error = if response.success then none else some response.message

/-- The event for a request that a limiter refused: who asked, whose limiter it was, and its limit. -/
def denialEvent (caller : Caller) (denial : Decision) : Audit.Event where
  action := "rate_limit_exceeded"
  actor := caller.context.actor
  resource := denial.scope
  success := false
  error := some "rate limit exceeded"
  details := [("limit", .nat denial.limit)]
  maskedAddress := (caller.context.address.map Address.masked).getD Audit.unknownAddress
  userAgent := caller.context.userAgent
  correlationId := some caller.context.correlationId

/-- The event for a credential that was not accepted: who showed it, and why it was not. -/
def refusalEvent (caller : Caller) (reason : String) : Audit.Event where
  action := "auth_failure"
  actor := caller.context.actor
  resource := "control_surface"
  success := false
  error := some reason
  maskedAddress := (caller.context.address.map Address.masked).getD Audit.unknownAddress
  userAgent := caller.context.userAgent
  correlationId := some caller.context.correlationId

theorem rateLimit_eq (caller : Caller) (denial : Decision) :
    Audit.Event.rateLimit caller.context denial.scope denial.limit = denialEvent caller denial := rfl

theorem authFailure_eq (caller : Caller) (reason : String) :
    Audit.Event.authFailure caller.context reason = refusalEvent caller reason := rfl

/-- A decision is that of the first tier that refused, in the order in which they are asked: those before it have
let the request pass, and those after it were neither charged nor counted for. -/
def FirstDenial (op : Operation) (denial : Decision) (own : List Effect) : Prop :=
  ∃ asked tier left passed, op.opClass.tiers = asked ++ tier :: left ∧ Request.Admitted asked passed ∧
    own.filterMap Effect.decision? = passed ++ [denial] ∧ denial.scope = tier.label ∧ denial.allowed = false ∧
    ∀ later ∈ left, Effect.Uncharged later own ∧ ∀ command, .command command ∈ own → ¬CountsFor later command

/-- What a request tells agrees with the response that its caller got. -/
structure Story (caller : Caller) (op : Operation) (response : Response) (own : List Effect) : Prop where
  record : ∃ before time event, own = before ++ [.audit ⟨time, event⟩] ∧
    Effect.eventsOf "http_request" own = [event] ∧ Recorded caller op response event
  data : response.data.isSome = response.success
  kind : response.kind.isSome = !response.success
  rateLimit : response.rateLimit.isSome = true ↔ response.kind = some .rateLimited
  denied : ∀ denial, response.rateLimit = some denial → FirstDenial op denial own ∧
    Effect.eventsOf "rate_limit_exceeded" own = [denialEvent caller denial]
  passed : response.rateLimit = none → Request.Admitted op.opClass.tiers (own.filterMap Effect.decision?) ∧
    Effect.eventsOf "rate_limit_exceeded" own = []
  unauthorized : response.kind = some .unauthorized →
    Effect.eventsOf "auth_failure" own = [refusalEvent caller response.message]
  authorized : response.kind ≠ some .unauthorized → Effect.eventsOf "auth_failure" own = []

/-- The limiters and the gate alone give these two kinds. -/
theorem Error.kind_ne (e : Error) : e.kind ≠ .rateLimited ∧ e.kind ≠ .unauthorized := by
  cases e with
  | access e | workload e | call e => cases e <;> exact ⟨nofun, nofun⟩
  | validation | notConfigured => exact ⟨nofun, nofun⟩

/-- Where the last effect is the record of a request, and there is none before it. -/
theorem recorded_last {caller : Caller} {op : Operation} {response : Response} {error : Option String}
    {before : List Effect} {time : Instant} {elapsed : Span} (none_before : Effect.eventsOf "http_request" before = [])
    (agrees : error = if response.success then none else some response.message) :
    ∃ front later event,
      before ++ [.audit ⟨time, .request caller.context op.name op.resource error elapsed⟩] =
        front ++ [.audit ⟨later, event⟩] ∧
      Effect.eventsOf "http_request"
        (before ++ [.audit ⟨time, .request caller.context op.name op.resource error elapsed⟩]) = [event] ∧
      Recorded caller op response event := by
  refine ⟨before, time, _, rfl, by simp [none_before], ?_⟩
  subst agrees
  cases success : response.success with
  | true => exact ⟨rfl, rfl, rfl, rfl, rfl, success.symm, by rw [success]; rfl⟩
  | false => exact ⟨rfl, rfl, rfl, rfl, rfl, success.symm, by rw [success]; rfl⟩

namespace Request

variable {r : Request} {own : List Effect} {response : Response}

theorem nodup_tiers (op : Operation) : op.opClass.tiers.Nodup := by
  cases op.opClass <;> decide

/-- Where none but the tiers up to one were charged and counted for, the later ones were not. -/
theorem firstDenial_of_charges {op : Operation} {asked left : List Tier} {tier : Tier} {passed : List Decision}
    {denial : Decision} (all : op.opClass.tiers = asked ++ tier :: left) (admitted : Admitted asked passed)
    (charges : own.filterMap Effect.decision? = passed ++ [denial]) (scope : denial.scope = tier.label)
    (refused : denial.allowed = false)
    (counts : ∀ command, .command command ∈ own → ∃ t ∈ asked ++ [tier], CountsFor t command) :
    FirstDenial op denial own := by
  have scopes : (own.filterMap Effect.decision?).map (·.scope) = (asked ++ [tier]).map Tier.label := by
    rw [charges, List.map_append, List.map_append, admitted.1, List.map_singleton, scope]
    rfl
  have apart : ∀ later ∈ left, later ∉ asked ++ [tier] := by
    intro later behind before
    have distinct := nodup_tiers op
    rw [all, List.append_cons] at distinct
    exact (List.nodup_append.1 distinct).2.2 later before later behind rfl
  refine ⟨asked, tier, left, passed, all, admitted, charges, scope, refused, fun later behind => ⟨?_, ?_⟩⟩
  · intro d charged same
    have listed : d.scope ∈ (own.filterMap Effect.decision?).map (·.scope) := List.mem_map.2 ⟨d, charged, rfl⟩
    rw [scopes] at listed
    obtain ⟨t, before, label⟩ := List.mem_map.1 listed
    exact apart later behind (Tier.label_inj (label.trans same) ▸ before)
  · intro command sent counted
    obtain ⟨t, before, other⟩ := counts command sent
    exact apart later behind (other.tier_eq counted ▸ before)

/-- A request that was answered has told the whole story. -/
theorem Tells.story (tells : r.Tells own) (answered : r.stage = .refused response ∨ r.stage = .done response) :
    Story r.caller r.op response own := by
  cases tells with
  | asking stands | lost stands => simp [stands] at answered
  | @denied asked left tier passed denial front commands time later elapsed stands all passes counts scope refused =>
    simp only [stands, Stage.refused.injEq, reduceCtorEq, or_false] at answered
    subst answered
    have told := passes.eventsOf
    refine ⟨recorded_last (by simp [told]) rfl, rfl, rfl, ⟨fun _ => rfl, fun _ => rfl⟩, ?_, nofun, nofun,
      fun _ => by simp [told]⟩
    intro _ same
    cases same
    refine ⟨firstDenial_of_charges all passes.admitted ?_ scope refused ?_, by simp [told, ← rateLimit_eq]⟩
    · rw [List.append_assoc, List.append_assoc]
      exact passes.charges_snoc commands _
    · rw [List.append_assoc, List.append_assoc]
      exact passes.counts_snoc counts _ (by simp)
  | @turned passed front time later elapsed stands passes =>
    simp only [stands, Stage.refused.injEq, reduceCtorEq, or_false] at answered
    subst answered
    have told := passes.eventsOf
    refine ⟨recorded_last (by simp [told]) rfl, rfl, rfl, ⟨nofun, nofun⟩, nofun, fun _ => ⟨?_, by simp [told]⟩,
      fun _ => by simp [told, Response.failure, ← authFailure_eq], fun other => absurd rfl other⟩
    rw [List.append_assoc]
    exact passes.admitted_append rfl
  | @done result passed front body time elapsed stands passes effects =>
    simp only [stands, Stage.done.injEq, reduceCtorEq, false_or] at answered
    subst answered
    have told : ∀ action ∈ Effect.pipelineActions, Effect.eventsOf action (front ++ body) = [] := by
      intro action known
      rw [Effect.eventsOf_append, passes.eventsOf, Effect.eventsOf_body known effects]
      rfl
    have charged : Admitted r.op.opClass.tiers ((front ++ body ++ [Effect.audit ⟨time, .request r.caller.context
        r.op.name r.op.resource (errorOf result) elapsed⟩]).filterMap Effect.decision?) := by
      rw [List.append_assoc]
      apply passes.admitted_append
      rw [List.filterMap_append, Effect.charges_body effects]
      rfl
    cases result with
    | ok data =>
      refine ⟨recorded_last (told _ (by decide)) rfl, rfl, rfl, ⟨nofun, nofun⟩, nofun, fun _ => ⟨charged, ?_⟩, nofun,
        fun _ => ?_⟩
      · exact Effect.eventsOf_recorded (by decide) (told _ (by decide))
      · exact Effect.eventsOf_recorded (by decide) (told _ (by decide))
    | error e =>
      obtain ⟨unlimited, permitted⟩ := e.kind_ne
      refine ⟨recorded_last (told _ (by decide)) rfl, rfl, rfl, ⟨nofun, ?_⟩, nofun, fun _ => ⟨charged, ?_⟩, ?_,
        fun _ => ?_⟩
      · exact fun limited => absurd (Option.some.inj limited) unlimited
      · exact Effect.eventsOf_recorded (by decide) (told _ (by decide))
      · exact fun refused => absurd (Option.some.inj refused) permitted
      · exact Effect.eventsOf_recorded (by decide) (told _ (by decide))

end Request

/-! ### No answer -/

namespace Session

variable {s next : Session} {ctx : Context} {tier : Tier} {tiers asked : List Tier} {around : Surroundings}
  {fault : Admission.ArithmeticFault}

/-- A tier has no answer: the bucket that is asked has a token, but a sum of the take does not fit into a word, or the
rate leaves no time for a token. -/
def Fails (ctx : Context) (tier : Tier) (around : Surroundings) (fault : Admission.ArithmeticFault)
    (s : Session) : Prop :=
  ∃ b now, (Admission.Request.check ctx tier s.clock around.cache).asks s.plane.admission = some (b, now) ∧
    b.Ready now ∧ ((¬ b.Fits now ∧ fault = .overflow) ∨
      (b.Fits now ∧ Span.second < b.quota.rate ∧ fault = .divisionByZero))

theorem chargeTier_error_iff : s.chargeTier ctx tier around = .error fault ↔ s.Fails ctx tier around fault := by
  have served : s.chargeTier ctx tier around = .error fault ↔
      (Admission.Request.check ctx tier s.clock around.cache).serve s.plane.admission = .error fault := by
    rw [chargeTier, Admission.Request.serve]
    cases s.plane.admission.check ctx tier s.clock around.cache with
    | error other => simp [bind, Except.bind, Except.map]
    | ok result => simp [bind, Except.bind, Except.map, pure, Except.pure]
  simp only [served, Admission.Request.serve_error_iff, Admission.Bucket.take_error_iff, Fails]

/-- Tiers that have let a request pass leave it to the others. -/
theorem charge_append (passed : charge ctx around asked s = .ok (none, next)) (left : List Tier) :
    charge ctx around (asked ++ left) s = charge ctx around left next := by
  induction asked generalizing s with
  | nil =>
    cases passed
    rfl
  | cons tier asked ih =>
    rw [charge] at passed
    rw [List.cons_append, charge]
    cases answered : s.chargeTier ctx tier around with
    | error other => simp [answered] at passed
    | ok result =>
      obtain ⟨decision, after⟩ := result
      cases allowed : decision.allowed with
      | false => simp [answered, allowed] at passed
      | true =>
        simp only [answered, allowed, if_true] at passed ⊢
        exact ih passed

/-- Where the tiers have no answer, one of them has none, and those before it have let the request pass. -/
theorem exists_fails_of_charge (failed : charge ctx around tiers s = .error fault) :
    ∃ asked tier left s', tiers = asked ++ tier :: left ∧ charge ctx around asked s = .ok (none, s') ∧
      s'.Fails ctx tier around fault := by
  induction tiers generalizing s with
  | nil => cases failed
  | cons tier left ih =>
    rw [charge] at failed
    cases answered : s.chargeTier ctx tier around with
    | error other =>
      rw [answered] at failed
      cases failed
      exact ⟨[], tier, left, s, rfl, rfl, chargeTier_error_iff.1 answered⟩
    | ok result =>
      obtain ⟨decision, after⟩ := result
      cases allowed : decision.allowed with
      | false => simp [answered, allowed] at failed
      | true =>
        simp only [answered, allowed, if_true] at failed
        obtain ⟨before, later, rest, s', rfl, passed, fails⟩ := ih failed
        exact ⟨tier :: before, later, rest, s', rfl, by simpa [charge, answered, allowed] using passed, fails⟩

theorem charge_error_iff : charge ctx around tiers s = .error fault ↔
    ∃ asked tier left s', tiers = asked ++ tier :: left ∧ charge ctx around asked s = .ok (none, s') ∧
      s'.Fails ctx tier around fault := by
  refine ⟨exists_fails_of_charge, ?_⟩
  rintro ⟨asked, tier, left, s', rfl, passed, fails⟩
  rw [charge_append passed, charge, chargeTier_error_iff.2 fails]

theorem run_error_iff {caller : Caller} {op : Operation} : s.run caller op around = .error fault ↔
    charge caller.context around op.opClass.tiers s = .error fault := by
  rw [run_eq_settle]
  cases charge caller.context around op.opClass.tiers s with
  | error other => simp [Except.map]
  | ok charged => simp [Except.map]

end Session

/-! ### One request, one record -/

/-- One request, one record, one story. An operation has no answer if and only if it comes to a tier that has none,
with all tiers before it passed. Otherwise the caller gets a response, and what was added to the journal is one story
with it; the buckets of tiers that were not charged are as they were. So it is for the steps of a request as well,
whatever comes between them. -/
theorem requests_tell_one_story (caller : Caller) (op : Operation) (around : Surroundings) (s : Session) :
    (∀ fault, s.run caller op around = .error fault ↔ ∃ asked tier left s', op.opClass.tiers = asked ++ tier :: left ∧
      Session.charge caller.context around asked s = .ok (none, s') ∧ s'.Fails caller.context tier around fault) ∧
    (∀ response next, s.run caller op around = .ok (response, next) → ∃ own, next.journal = s.journal ++ own ∧
      Story caller op response own ∧ ∀ tier, Effect.Uncharged tier own →
        next.plane.admission.bucket tier = s.plane.admission.bucket tier) ∧
    ∀ began own r response, Request.Goes (.arriving caller op began) own r →
      r.stage = .refused response ∨ r.stage = .done response → Story caller op response own := by
  have goes {began : Span} {own : List Effect} {r : Request} {response : Response}
      (steps : Request.Goes (.arriving caller op began) own r)
      (answered : r.stage = .refused response ∨ r.stage = .done response) : Story caller op response own := by
    have story := ((Request.tells_arriving caller op began).goes steps).story answered
    rwa [steps.keeps.1, steps.keeps.2] at story
  refine ⟨fun fault => Session.run_error_iff.trans Session.charge_error_iff, ?_, fun _ _ _ _ => goes⟩
  intro response next ran
  obtain ⟨own, r, steps, answered, grown, kept⟩ := Request.exists_goes_of_run ran
  exact ⟨own, grown, goes steps answered, kept⟩

/-! ### A tier that refuses, and one without an answer -/

/-- A control plane whose second tier has no token left. -/
def drained : Session :=
  { desk with plane.admission.admin := { quota := .of 1 1, made := 0, fullAt := some (Span.ofSeconds 10) } }

def sweeper : Caller := ⟨⟨"ops", none, none, "c-1"⟩, some "s3cret"⟩

/-- The first tier lets the request pass and the second refuses, and this is what the caller and the journal tell. -/
theorem requests_tell_one_story_drained :
    ∃ response next denial own, drained.run sweeper .cleanupExpired silence = .ok (response, next) ∧
      next.journal = drained.journal ++ own ∧ Story sweeper .cleanupExpired response own ∧
      response.rateLimit = some denial ∧ denial.scope = "admin" ∧ FirstDenial .cleanupExpired denial own ∧
      Effect.eventsOf "rate_limit_exceeded" own = [denialEvent sweeper denial] := by
  have told : (drained.run sweeper .cleanupExpired silence).toOption.bind (·.1.rateLimit.map (·.scope)) =
      some "admin" := by decide +kernel
  cases ran : drained.run sweeper .cleanupExpired silence with
  | error fault => simp [ran, Except.toOption] at told
  | ok result =>
    obtain ⟨response, next⟩ := result
    simp only [ran, Except.toOption, Option.bind_some, Option.map_eq_some_iff] at told
    obtain ⟨denial, limited, scope⟩ := told
    obtain ⟨_, answers, _⟩ := requests_tell_one_story sweeper .cleanupExpired silence drained
    obtain ⟨own, grown, story, _⟩ := answers response next ran
    obtain ⟨first, events⟩ := story.denied denial limited
    exact ⟨response, next, denial, own, rfl, grown, story, limited, scope, first, events⟩

/-- A control plane under settings that name a rate for which no bucket has time. -/
def hurry : Session := { desk with plane.admission := .of Admission.hurried.rateLimit false 0 }

/-- The settings are accepted, but not every operation has a response: the first one has none. -/
theorem hurry_has_no_story :
    Admission.hurried.fault? = none ∧
      hurry.run sweeper (.isAllowed "10.0.0.1") silence = .error .divisionByZero ∧
      ¬∀ (s : Session) (caller : Caller) (op : Operation) (around : Surroundings), ∃ response next own,
        s.run caller op around = .ok (response, next) ∧ next.journal = s.journal ++ own ∧
          Story caller op response own := by
  have lost : hurry.run sweeper (.isAllowed "10.0.0.1") silence = .error .divisionByZero := rfl
  refine ⟨by decide +kernel, lost, ?_⟩
  intro always
  obtain ⟨response, next, _, ran, _⟩ := always hurry sweeper (.isAllowed "10.0.0.1") silence
  rw [lost] at ran
  cases ran

end HostControl.Control
