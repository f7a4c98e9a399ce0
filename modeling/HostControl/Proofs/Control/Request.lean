/-
Module: HostControl.Proofs.Control.Request
Purpose: A request on its way through the pipeline, step by step: each tier that it asks is a step, and so
  is what follows once all have let it pass. The steps in a row are what the pipeline does as a whole. No
  step but the one that carries the request out has to do with the components behind the gate.
Main exports: Stage, Request, Request.advance, Step, step_advance, outcome_advances, Admitted, InOrder,
  InOrder.step, Step.charges_eq, Step.equip, Step.quiet, Step.bodies_eq
-/
import HostControl.Proofs.Control.Effects

namespace HostControl.Control

/-! ### How a request ends -/

namespace Session

/-- Carries an operation out and records the request for it, which began at `began`. -/
def carryOut (caller : Caller) (op : Operation) (began : Span) (around : Surroundings) (s : Session) :
    Response × Session :=
  let (result, next) := s.perform caller op around
  let error := match result with
    | .ok _ => none
    | .error e => some e.message
  (answer op result, next.recordRequest caller op error began)

/-- Turns a request away whose credential is not right. -/
def turnAway (caller : Caller) (op : Operation) (began : Span) (s : Session) : Response × Session :=
  let reason := credentialFault caller
  (.failure .unauthorized reason,
    (s.record [.authFailure caller.context reason]).recordRequest caller op (some reason) began)

/-- Ends a request whose tiers have been asked. -/
def settle (caller : Caller) (op : Operation) (began : Span) (around : Surroundings) :
    Option Admission.Decision × Session → Response × Session
  | (some decision, s) =>
      (.rateLimited decision, s.recordRequest caller op (some Response.rateLimitText) began)
  | (none, s) =>
      if op.opClass = .mutation ∧ !authorized caller.credential s.plane then s.turnAway caller op began
      else s.carryOut caller op began around

theorem run_eq_settle (caller : Caller) (op : Operation) (around : Surroundings) (s : Session) :
    s.run caller op around =
      (charge caller.context around op.opClass.tiers s).map (settle caller op s.clock.elapsed around) := by
  unfold run
  cases charge caller.context around op.opClass.tiers s with
  | error fault => rfl
  | ok charged =>
    obtain ⟨_ | decision, next⟩ := charged
    · simp only [bind, Except.bind, Except.map, settle]
      split
      · rfl
      · rfl
    · rfl

end Session

/-! ### A request on its way -/

/-- How far a request has come: which tiers are still to be asked, or how it ended. -/
inductive Stage where
  | asking (left : List Admission.Tier)
  | refused (response : Response)
  | done (response : Response)
  | lost (fault : Admission.ArithmeticFault)

/-- A request that has arrived, and the decisions on it so far. -/
structure Request where
  caller : Caller
  op : Operation
  began : Span
  decisions : List Admission.Decision := []
  stage : Stage

namespace Request

def arriving (caller : Caller) (op : Operation) (began : Span) : Request where
  caller
  op
  began
  stage := .asking op.opClass.tiers

/-- Whether the next step of a request is to carry it out. -/
def ready (p : Plane) (r : Request) : Bool :=
  match r.stage with
  | .asking [] => !(r.op.opClass = .mutation ∧ !Session.authorized r.caller.credential p)
  | _ => false

/-- One step of a request: the next tier is asked, or the credential is looked at and the operation carried
out. A request that has ended makes no more steps. -/
def advance (around : Surroundings) (r : Request) (s : Session) : Request × Session :=
  match r.stage with
  | .asking (tier :: left) =>
    match s.chargeTier r.caller.context tier around with
    | .error fault => ({ r with stage := .lost fault }, s)
    | .ok (decision, next) =>
      if decision.allowed then
        ({ r with decisions := r.decisions ++ [decision], stage := .asking left }, next)
      else
        ({ r with decisions := r.decisions ++ [decision], stage := .refused (.rateLimited decision) },
          next.recordRequest r.caller r.op (some Response.rateLimitText) r.began)
  | .asking [] =>
    -- The operation is one step: its call goes out at the start of it, and the lists are locked while they
    -- change.
    if r.ready s.plane then
      let (response, next) := s.carryOut r.caller r.op r.began around
      ({ r with stage := .done response }, next)
    else
      let (response, next) := s.turnAway r.caller r.op r.began
      ({ r with stage := .refused response }, next)
  | _ => (r, s)

/-- Steps of one request with nothing in between. -/
def advances (around : Surroundings) : Nat → Request × Session → Request × Session
  | 0, x => x
  | n + 1, (r, s) => advances around n (r.advance around s)

/-- What a request came to, once it has ended. -/
def outcome (s : Session) (r : Request) : Option (Except Admission.ArithmeticFault (Response × Session)) :=
  match r.stage with
  | .asking _ => none
  | .refused response | .done response => some (.ok (response, s))
  | .lost fault => some (.error fault)

variable {r : Request} {s next : Session} {around : Surroundings} {tier : Admission.Tier}
  {left : List Admission.Tier} {decision : Admission.Decision}

theorem ready_iff {p : Plane} :
    r.ready p = true ↔ r.stage = .asking [] ∧
      (r.op.opClass = .mutation → Session.authorized r.caller.credential p = true) := by
  unfold ready
  split
  · next stands => simp [stands, Decidable.imp_iff_not_or]
  · next others =>
    constructor
    · exact nofun
    · rintro ⟨stands, _⟩
      exact absurd stands others

/-! ### Its steps -/

/-- What a step of a request can be, with the request and the session after it. -/
inductive Step (around : Surroundings) (r : Request) (s : Session) : Request → Session → Prop where
  | ended (ended : ∀ left, r.stage ≠ .asking left) : Step around r s r s
  | carried (ready : r.ready s.plane = true) :
      Step around r s { r with stage := .done (s.carryOut r.caller r.op r.began around).1 }
        (s.carryOut r.caller r.op r.began around).2
  | turned (stands : r.stage = .asking []) (wrong : r.ready s.plane = false) :
      Step around r s { r with stage := .refused (s.turnAway r.caller r.op r.began).1 }
        (s.turnAway r.caller r.op r.began).2
  | lost {tier : Admission.Tier} {left : List Admission.Tier} {fault : Admission.ArithmeticFault}
      (stands : r.stage = .asking (tier :: left))
      (failed : s.chargeTier r.caller.context tier around = .error fault) :
      Step around r s { r with stage := .lost fault } s
  | allowed {tier : Admission.Tier} {left : List Admission.Tier} {decision : Admission.Decision}
      {next : Session} (stands : r.stage = .asking (tier :: left))
      (asked : s.chargeTier r.caller.context tier around = .ok (decision, next))
      (allowed : decision.allowed = true) :
      Step around r s { r with decisions := r.decisions ++ [decision], stage := .asking left } next
  | denied {tier : Admission.Tier} {left : List Admission.Tier} {decision : Admission.Decision}
      {next : Session} (stands : r.stage = .asking (tier :: left))
      (asked : s.chargeTier r.caller.context tier around = .ok (decision, next))
      (denied : decision.allowed = false) :
      Step around r s
        { r with decisions := r.decisions ++ [decision], stage := .refused (.rateLimited decision) }
        (next.recordRequest r.caller r.op (some Response.rateLimitText) r.began)

variable {r' : Request} {s' : Session}

theorem Step.advance_eq (step : Step around r s r' s') : r.advance around s = (r', s') := by
  cases step with
  | ended ended =>
    unfold advance
    split
    · next stands => exact absurd stands (ended _)
    · next stands => exact absurd stands (ended _)
    · rfl
  | carried ready =>
    rw [advance, (ready_iff.1 ready).1]
    exact if_pos ready
  | turned stands wrong =>
    rw [advance, stands]
    exact if_neg (Bool.eq_false_iff.1 wrong)
  | lost stands failed =>
    rw [advance, stands]
    simp only [failed]
  | allowed stands asked allowed =>
    rw [advance, stands]
    simp only [asked, allowed, if_true]
  | denied stands asked denied =>
    rw [advance, stands]
    simp only [asked, denied]
    rfl

theorem exists_step (around : Surroundings) (r : Request) (s : Session) :
    ∃ r' s', Step around r s r' s' := by
  cases stands : r.stage with
  | refused | done | lost =>
    refine ⟨_, _, .ended ?_⟩
    rw [stands]
    exact nofun
  | asking left =>
    cases left with
    | nil =>
      cases ready : r.ready s.plane with
      | true => exact ⟨_, _, .carried ready⟩
      | false => exact ⟨_, _, .turned stands ready⟩
    | cons tier left =>
      cases asked : s.chargeTier r.caller.context tier around with
      | error fault => exact ⟨_, _, .lost stands asked⟩
      | ok charged =>
        cases allowed : charged.1.allowed with
        | true => exact ⟨_, _, .allowed stands asked allowed⟩
        | false => exact ⟨_, _, .denied stands asked allowed⟩

theorem step_advance (around : Surroundings) (r : Request) (s : Session) :
    Step around r s (r.advance around s).1 (r.advance around s).2 := by
  obtain ⟨r', s', step⟩ := exists_step around r s
  rwa [step.advance_eq]

theorem advances_of_ended (ended : ∀ left, r.stage ≠ .asking left) (n : Nat) :
    advances around n (r, s) = (r, s) := by
  induction n with
  | zero => rfl
  | succ n ih => rw [advances, (Step.ended ended).advance_eq, ih]

/-- From where it stands, a request that is left to itself asks the tiers that are left and is settled. -/
theorem outcome_advances_asking (stands : r.stage = .asking left) :
    (advances around (left.length + 1) (r, s)).1.outcome (advances around (left.length + 1) (r, s)).2 =
      some ((Session.charge r.caller.context around left s).map
        (Session.settle r.caller r.op r.began around)) := by
  induction left generalizing r s with
  | nil =>
    rw [List.length_nil, advances, advances, Session.charge, Except.map, Session.settle]
    by_cases ready : r.ready s.plane = true
    · rw [(Step.carried ready).advance_eq, outcome, if_neg]
      simpa using (ready_iff.1 ready).2
    · rw [(Step.turned stands (Bool.eq_false_iff.2 ready)).advance_eq, outcome, if_pos]
      simpa [ready_iff, stands] using ready
  | cons tier left ih =>
    rw [List.length_cons, advances, Session.charge]
    cases asked : s.chargeTier r.caller.context tier around with
    | error fault =>
      rw [(Step.lost stands asked).advance_eq, advances_of_ended]
      · rfl
      · exact nofun
    | ok charged =>
      obtain ⟨decision, next⟩ := charged
      cases allowed : decision.allowed with
      | true =>
        rw [(Step.allowed stands asked allowed).advance_eq, ih rfl]
        simp [allowed]
      | false =>
        rw [(Step.denied stands asked allowed).advance_eq, advances_of_ended]
        · simp [allowed, outcome, Except.map, Session.settle]
        · exact nofun

/-- An operation is a request that makes its steps with nothing in between. -/
theorem outcome_advances (caller : Caller) (op : Operation) (around : Surroundings) (s : Session) :
    let last := advances around (op.opClass.tiers.length + 1) (arriving caller op s.clock.elapsed, s)
    last.1.outcome last.2 = some (s.run caller op around) := by
  rw [Session.run_eq_settle]
  exact outcome_advances_asking rfl

/-! ### The order of the gate -/

/-- Decisions by which tiers, in their order, admitted a request. -/
def Admitted (tiers : List Admission.Tier) (decisions : List Admission.Decision) : Prop :=
  decisions.map (·.scope) = tiers.map Admission.Tier.label ∧ ∀ d ∈ decisions, d.allowed = true

theorem Admitted.snoc {tiers : List Admission.Tier} {decisions : List Admission.Decision}
    (admitted : Admitted tiers decisions) (scope : decision.scope = tier.label)
    (allowed : decision.allowed = true) :
    Admitted (tiers ++ [tier]) (decisions ++ [decision]) := by
  refine ⟨by rw [List.map_append, List.map_append, admitted.1, List.map_singleton, scope]; rfl, ?_⟩
  intro d member
  rcases List.mem_append.1 member with before | last
  · exact admitted.2 d before
  · rwa [List.mem_singleton.1 last]

/-- A request has asked its tiers one after another, and stands where their decisions and its credential
have brought it. -/
def InOrder (key : String) (r : Request) : Prop :=
  match r.stage with
  | .asking left => ∃ asked, r.op.opClass.tiers = asked ++ left ∧ Admitted asked r.decisions
  | .refused response =>
      (∃ asked tier left passed denial, r.op.opClass.tiers = asked ++ tier :: left ∧
        r.decisions = passed ++ [denial] ∧ Admitted asked passed ∧ denial.scope = tier.label ∧
        denial.allowed = false ∧ response = .rateLimited denial) ∨
      (Admitted r.op.opClass.tiers r.decisions ∧ r.op.opClass = .mutation ∧
        ¬Session.Fits key r.caller.credential ∧
        response = .failure .unauthorized (Session.credentialFault r.caller))
  | .done _ => Admitted r.op.opClass.tiers r.decisions ∧
      (r.op.opClass = .mutation → Session.Fits key r.caller.credential)
  | .lost _ => ∃ asked left, r.op.opClass.tiers = asked ++ left ∧ left ≠ [] ∧ Admitted asked r.decisions

theorem inOrder_arriving (key : String) (caller : Caller) (op : Operation) (began : Span) :
    (arriving caller op began).InOrder key := ⟨[], rfl, rfl, nofun⟩

theorem InOrder.of_asking {key : String} (inOrder : r.InOrder key)
    (stands : r.stage = .asking left) :
    ∃ asked, r.op.opClass.tiers = asked ++ left ∧ Admitted asked r.decisions := by
  rwa [InOrder, stands] at inOrder

/-- A request that is to be carried out has been admitted, and has shown the credential if it needs one. -/
theorem InOrder.of_ready {key : String} (inOrder : r.InOrder key) (same : s.plane.apiKey = key)
    (ready : r.ready s.plane = true) :
    Admitted r.op.opClass.tiers r.decisions ∧
      (r.op.opClass = .mutation → Session.Fits key r.caller.credential) := by
  obtain ⟨stands, authorized⟩ := ready_iff.1 ready
  obtain ⟨asked, all, admitted⟩ := inOrder.of_asking stands
  rw [all, List.append_nil]
  exact ⟨admitted, fun needs => same ▸ Session.authorized_iff.1 (authorized needs)⟩

/-- Each step of a request keeps the order. -/
theorem InOrder.step {key : String} (inOrder : r.InOrder key) (same : s.plane.apiKey = key)
    (step : Step around r s r' s') : r'.InOrder key := by
  cases step with
  | ended => exact inOrder
  | carried ready => exact inOrder.of_ready same ready
  | turned stands wrong =>
    obtain ⟨asked, all, admitted⟩ := inOrder.of_asking stands
    rw [List.append_nil] at all
    have wrong : r.op.opClass = .mutation ∧ Session.authorized r.caller.credential s.plane = false := by
      simpa [ready_iff, stands] using Bool.eq_false_iff.1 wrong
    refine .inr ⟨all ▸ admitted, wrong.1, ?_, rfl⟩
    rw [← same, ← Session.authorized_iff, wrong.2]
    exact nofun
  | lost stands failed =>
    obtain ⟨asked, all, admitted⟩ := inOrder.of_asking stands
    exact ⟨asked, _, all, nofun, admitted⟩
  | allowed stands asked allowed =>
    obtain ⟨scope, _⟩ := Session.chargeTier_spec asked
    obtain ⟨before, all, admitted⟩ := inOrder.of_asking stands
    exact ⟨before ++ [_], by rw [all, List.append_assoc]; rfl, admitted.snoc scope allowed⟩
  | denied stands asked denied =>
    obtain ⟨scope, _⟩ := Session.chargeTier_spec asked
    obtain ⟨before, all, admitted⟩ := inOrder.of_asking stands
    exact .inl ⟨before, _, _, _, _, all, rfl, admitted, scope, denied, rfl⟩

/-! ### What a step leaves alone -/

theorem Step.apiKey_eq (step : Step around r s r' s') : s'.plane.apiKey = s.plane.apiKey := by
  cases step with
  | ended | turned | lost => rfl
  | carried ready =>
    obtain ⟨⟨registry, same⟩, _⟩ := Session.perform_spec r.caller r.op around s
    have kept := congrArg Plane.apiKey same
    exact kept
  | allowed _ asked | denied _ asked =>
    obtain ⟨_, _, _, admission, same⟩ := Session.chargeTier_spec asked
    have kept := congrArg Plane.apiKey same
    exact kept

/-- The tiers that a step of a request charges are those whose decisions the request gets. -/
theorem Step.charges_eq (step : Step around r s r' s') :
    ∃ fresh, r'.decisions = r.decisions ++ fresh ∧ s'.charges = s.charges ++ fresh := by
  cases step with
  | ended | lost => exact ⟨[], by simp, by simp⟩
  | carried ready =>
    obtain ⟨_, adds⟩ := Session.perform_spec r.caller r.op around s
    refine ⟨[], by simp, ?_⟩
    simp [Session.carryOut, Session.recordRequest, Session.charges_of_adds adds]
  | turned => exact ⟨[], by simp, by simp [Session.turnAway, Session.recordRequest]⟩
  | allowed _ asked =>
    obtain ⟨_, _, charged, _⟩ := Session.chargeTier_spec asked
    exact ⟨[_], rfl, charged⟩
  | denied _ asked =>
    obtain ⟨_, _, charged, _⟩ := Session.chargeTier_spec asked
    exact ⟨[_], rfl, by simp [Session.recordRequest, charged]⟩

/-- Unless it carries the request out, a step neither asks the components nor changes them. -/
theorem Step.equip (step : Step around r s r' s') (waits : r.ready s.plane = false) (parts : Plane)
    (others : Surroundings) :
    Step (Session.counting around others) r (s.equip parts) r' (s'.equip parts) := by
  have charged (tier : Admission.Tier) :=
    @Session.chargeTier_equip r.caller.context tier around others parts s
  cases step with
  | ended ended => exact .ended ended
  | carried ready => exact absurd ready (Bool.eq_false_iff.1 waits)
  | turned stands wrong => exact .turned (s := s.equip parts) stands wrong
  | lost stands failed =>
    refine .lost stands ((charged _).trans ?_)
    rw [failed]
    rfl
  | allowed stands asked allowed =>
    refine .allowed stands ((charged _).trans ?_) allowed
    rw [asked]
    rfl
  | @denied tier left decision next stands asked denied =>
    have asked' : (s.equip parts).chargeTier r.caller.context tier (Session.counting around others) =
        .ok (decision, next.equip parts) := by
      rw [charged, asked]
      rfl
    exact .denied stands asked' denied

/-- Where a step alters something outside or changes the access lists, it carries a request out that needs
the credential. Every other step adds effects that alter nothing. -/
theorem Step.quiet (step : Step around r s r' s')
    (lesser : ¬(r.ready s.plane = true ∧ r.op.opClass = .mutation)) :
    s'.plane.registry = s.plane.registry ∧ s.Adds (¬·.Alters) s' := by
  have audits {events : List Audit.Event} : ∀ time, ∀ e ∈ events, ¬(Effect.audit ⟨time, e⟩).Alters :=
    fun _ _ _ => id
  cases step with
  | ended | lost => exact ⟨rfl, Session.adds_of_journal_eq _ rfl⟩
  | carried ready =>
    obtain ⟨same, adds⟩ :=
      @Session.perform_harmless s r.caller r.op around fun needs => lesser ⟨ready, needs⟩
    have kept := congrArg Plane.registry same
    exact ⟨kept, (adds.mono fun _ harmless => harmless.1).record audits⟩
  | turned => exact ⟨rfl, ((Session.adds_of_journal_eq _ rfl).record audits).record audits⟩
  | allowed _ asked =>
    obtain ⟨_, adds, _, admission, same⟩ := Session.chargeTier_spec asked
    have kept := congrArg Plane.registry same
    exact ⟨kept, adds.mono fun _ => Effect.not_alters_of_ofGate⟩
  | denied _ asked =>
    obtain ⟨_, adds, _, admission, same⟩ := Session.chargeTier_spec asked
    have kept := congrArg Plane.registry same
    exact ⟨kept, (adds.mono fun _ => Effect.not_alters_of_ofGate).record audits⟩

/-- Every step only adds to the journal. -/
theorem Step.adds (step : Step around r s r' s') : s.Adds (fun _ => True) s' := by
  by_cases lesser : r.ready s.plane = true ∧ r.op.opClass = .mutation
  · cases step.advance_eq.symm.trans (Step.carried lesser.1).advance_eq
    obtain ⟨_, adds⟩ := Session.perform_spec r.caller r.op around s
    exact (adds.mono fun _ _ => trivial).record fun _ _ _ => trivial
  · exact (step.quiet lesser).2.mono fun _ _ => trivial

/-- How often a request was carried out, once it has ended. -/
def bodies (r : Request) : Nat :=
  match r.stage with
  | .done _ => 1
  | _ => 0

/-- A request is carried out by the step that ends it so, and by no other. -/
theorem Step.bodies_eq (step : Step around r s r' s') :
    r'.bodies = r.bodies + if r.ready s.plane then 1 else 0 := by
  have unready : r.stage ≠ .asking [] → r.ready s.plane = false := by
    intro elsewhere
    rw [Bool.eq_false_iff, Ne, ready_iff]
    exact fun ready => elsewhere ready.1
  cases step with
  | ended ended =>
    rw [unready (ended _)]
    rfl
  | carried ready =>
    rw [ready]
    simp [bodies, (ready_iff.1 ready).1]
  | turned stands wrong =>
    rw [wrong]
    simp [bodies, stands]
  | lost stands | allowed stands | denied stands =>
    rw [unready (by simp [stands])]
    simp [bodies, stands]

end Request

end HostControl.Control
