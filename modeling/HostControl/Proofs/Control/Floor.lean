/-
Module: HostControl.Proofs.Control.Floor
Purpose: Requests that are under way at once. Their steps follow one another in any order, with maintenance
  in between and limiters that may do anything. What is behind the gate is left alone until a request is
  through it, each request is carried out once at most, and only one that may change something does alter
  anything.
Main exports: Floor.step, Floor.after, Floor.performs, Floor.bodies, ordered_after, bodies_after,
  charges_after, step_equip, step_alters, gate_before_effect
-/
import HostControl.Proofs.Control.Request

namespace HostControl.Control

/-! ### Many requests -/

/-- The control plane and the requests that have arrived at it. -/
structure Floor where
  session : Session
  requests : List Request := []

/-- What can happen next: a request arrives or makes a step, there is a round of maintenance, the program
begins to serve, time passes, or the limiters get into any other state. -/
inductive Act where
  | arrive (caller : Caller) (op : Operation)
  | advance (number : Nat) (around : Surroundings)
  | maintain (around : Surroundings)
  | serve
  | wait (d : Span)
  | limiters (admission : Admission.Controller)

/-- What the program does of its own accord. -/
def Act.isUpkeep : Act → Bool
  | .maintain _ | .serve => true
  | _ => false

/-- The same act where everything but the counting of requests answers as it does elsewhere. -/
def Act.elsewhere (others : Surroundings) : Act → Act
  | .advance number around => .advance number (Session.counting around others)
  | act => act

namespace Floor

def step (f : Floor) : Act → Floor
  | .arrive caller op =>
      { f with requests := f.requests ++ [.arriving caller op f.session.clock.elapsed] }
  | .advance number around =>
      match f.requests[number]? with
      | none => f
      | some r =>
          let (r, session) := r.advance around f.session
          { session, requests := f.requests.set number r }
  | .maintain around => { f with session := (f.session.maintain around).2 }
  | .serve => { f with session := f.session.serve }
  | .wait d => { f with session := f.session.forward d }
  | .limiters admission =>
      { f with session := { f.session with plane := { f.session.plane with admission } } }

/-- The floor after acts, the latest first. -/
def after (s : Session) : List Act → Floor
  | [] => { session := s }
  | act :: past => (after s past).step act

/-- Whether an act carries the request with a number out. -/
def performs (number : Nat) (act : Act) (f : Floor) : Bool :=
  match act with
  | .advance other _ => other = number && f.requests[number]?.any (·.ready f.session.plane)
  | _ => false

/-- How often the request with a number is carried out by acts, the latest first. -/
def bodies (s : Session) (number : Nat) : List Act → Nat
  | [] => 0
  | act :: past => bodies s number past + if (after s past).performs number act then 1 else 0

/-- The floor with the components of another plane. -/
def equip (parts : Plane) (f : Floor) : Floor := { f with session := f.session.equip parts }

variable {s : Session} {f : Floor} {act : Act} {number : Nat}

theorem performs_iff : f.performs number act = true ↔ ∃ around r, act = .advance number around ∧
    f.requests[number]? = some r ∧ r.ready f.session.plane = true := by
  cases act with
  | advance other around =>
    simp only [performs, Bool.and_eq_true, decide_eq_true_eq, Option.any_eq_true, Act.advance.injEq]
    constructor
    · rintro ⟨rfl, r, found, ready⟩
      exact ⟨around, r, ⟨rfl, rfl⟩, found, ready⟩
    · rintro ⟨_, r, ⟨rfl, rfl⟩, found, ready⟩
      exact ⟨rfl, r, found, ready⟩
  | _ => simp [performs]

theorem step_of_found {around : Surroundings} {r : Request} (found : f.requests[number]? = some r) :
    f.step (.advance number around) =
      { session := (r.advance around f.session).2
        requests := f.requests.set number (r.advance around f.session).1 } := by
  rw [step, found]

theorem step_of_missing {around : Surroundings} (missing : f.requests[number]? = none) :
    f.step (.advance number around) = f := by
  rw [step, missing]

/-! ### Every request in order -/

/-- All requests have asked their tiers in order, and the key is as it was. -/
structure Ordered (key : String) (f : Floor) : Prop where
  key_eq : f.session.plane.apiKey = key
  inOrder : ∀ r ∈ f.requests, r.InOrder key

theorem Ordered.step {key : String} (ordered : f.Ordered key) (act : Act) : (f.step act).Ordered key := by
  obtain ⟨key_eq, inOrder⟩ := ordered
  cases act with
  | arrive caller op =>
    refine ⟨key_eq, ?_⟩
    intro r member
    rcases List.mem_append.1 member with before | last
    · exact inOrder r before
    · rw [List.mem_singleton.1 last]
      exact Request.inOrder_arriving ..
  | advance number around =>
    cases found : f.requests[number]? with
    | none => rw [step_of_missing found]; exact ⟨key_eq, inOrder⟩
    | some r =>
      rw [step_of_found found]
      have step := Request.step_advance around r f.session
      refine ⟨step.apiKey_eq.trans key_eq, ?_⟩
      intro other member
      rcases List.mem_or_eq_of_mem_set member with before | rfl
      · exact inOrder other before
      · exact (inOrder r (List.mem_of_getElem? found)).step key_eq step
  | maintain around =>
    obtain ⟨⟨admission, same⟩, _⟩ := Session.maintain_spec around f.session
    have kept := congrArg Plane.apiKey same
    exact ⟨kept.trans key_eq, inOrder⟩
  | serve | wait | limiters => exact ⟨key_eq, inOrder⟩

theorem ordered_after (s : Session) (acts : List Act) : (after s acts).Ordered s.plane.apiKey := by
  induction acts with
  | nil => exact ⟨rfl, fun _ member => absurd member List.not_mem_nil⟩
  | cons act past ih => exact ih.step act

/-! ### Carried out once -/

/-- How often the request with a number has been carried out, as its stage tells. -/
def bodiesAt (number : Nat) (f : Floor) : Nat := (f.requests[number]?.map Request.bodies).getD 0

theorem bodiesAt_step (number : Nat) (act : Act) (f : Floor) :
    (f.step act).bodiesAt number = f.bodiesAt number + if f.performs number act then 1 else 0 := by
  cases act with
  | arrive caller op =>
    simp only [bodiesAt, step, performs, List.getElem?_append]
    split
    · rfl
    · next beyond =>
      rw [List.getElem?_eq_none (Nat.le_of_not_lt beyond)]
      cases number - f.requests.length <;> rfl
  | advance other around =>
    cases found : f.requests[other]? with
    | none =>
      have idle : f.performs number (.advance other around) = false := by
        rw [Bool.eq_false_iff, Ne, performs_iff]
        rintro ⟨_, r, ⟨⟩, there, _⟩
        exact absurd (found.symm.trans there) nofun
      rw [step_of_missing found, idle]
      rfl
    | some r =>
      rw [step_of_found found]
      by_cases same : other = number
      · subst same
        have bound := (List.getElem?_eq_some_iff.1 found).1
        have counted := (Request.step_advance around r f.session).bodies_eq
        simp [bodiesAt, performs, found, List.getElem?_set_self bound, counted]
      · simp [bodiesAt, performs, same]
  | maintain | serve | wait | limiters => rfl

theorem bodies_after (s : Session) (number : Nat) (acts : List Act) :
    bodies s number acts = (after s acts).bodiesAt number := by
  induction acts with
  | nil => rfl
  | cons act past ih => rw [bodies, ih, after, bodiesAt_step]

/-! ### Charged for requests alone -/

/-- A decision that one of the requests gets is one more among those of all. -/
theorem flatMap_set_perm {requests : List Request} {r next : Request} {fresh : List Admission.Decision}
    (found : requests[number]? = some r) (grown : next.decisions = r.decisions ++ fresh) :
    ((requests.set number next).flatMap (·.decisions)).Perm (requests.flatMap (·.decisions) ++ fresh) := by
  induction requests generalizing number with
  | nil => cases found
  | cons first rest ih =>
    cases number with
    | zero =>
      cases found
      simp only [List.set_cons_zero, List.flatMap_cons, grown, List.append_assoc]
      exact List.perm_append_comm.append_left _
    | succ number =>
      rw [List.set_cons_succ, List.flatMap_cons, List.flatMap_cons, List.append_assoc]
      exact (ih found).append_left _

/-- Each decision in the journal was made on one of the requests, and is kept with it. -/
theorem charges_after (s : Session) (acts : List Act) :
    (after s acts).session.charges.Perm (s.charges ++ (after s acts).requests.flatMap (·.decisions)) := by
  induction acts with
  | nil => rw [after, List.flatMap_nil, List.append_nil]
  | cons act past ih =>
    rw [after]
    generalize after s past = f at ih ⊢
    cases act with
    | arrive caller op => simpa [step, Request.arriving] using ih
    | advance number around =>
      cases found : f.requests[number]? with
      | none => rwa [step_of_missing found]
      | some r =>
        rw [step_of_found found]
        obtain ⟨fresh, grown, charged⟩ := (Request.step_advance around r f.session).charges_eq
        rw [charged]
        refine (ih.append_right fresh).trans ?_
        rw [List.append_assoc]
        exact (flatMap_set_perm found grown).symm.append_left _
    | maintain around =>
      obtain ⟨_, adds⟩ := Session.maintain_spec around f.session
      have same := Session.charges_of_adds (adds.mono fun _ kind => kind.2)
      simpa [step, same] using ih
    | serve | wait | limiters => exact ih

/-! ### What an act leaves alone -/

/-- An act that neither carries a request out nor is upkeep goes the same way with any other components, and
leaves them as they are. -/
theorem step_equip (idle : ∀ number, f.performs number act = false) (outside : act.isUpkeep = false)
    (parts : Plane) (others : Surroundings) :
    (f.equip parts).step (act.elsewhere others) = (f.step act).equip parts := by
  cases act with
  | advance number around =>
    cases found : f.requests[number]? with
    | none =>
      rw [step_of_missing found]
      exact step_of_missing found
    | some r =>
      have waits : r.ready f.session.plane = false := by simpa [performs, found] using idle number
      have same := ((Request.step_advance around r f.session).equip waits parts others).advance_eq
      rw [step_of_found found, Act.elsewhere, step_of_found (f := f.equip parts) found]
      simp only [equip, same]
  | maintain | serve => cases outside
  | arrive | wait | limiters => rfl

/-- Where an act alters something outside or changes the access lists, it carries out a request that needs
the credential, or it is the sweep of maintenance. -/
theorem step_alters (f : Floor) (act : Act) :
    ∃ effects, (f.step act).session.journal = f.session.journal ++ effects ∧
      ((f.step act).session.plane.registry ≠ f.session.plane.registry ∨ (∃ e ∈ effects, e.Alters) →
        (∃ number r, f.performs number act = true ∧ f.requests[number]? = some r ∧
          r.op.opClass = .mutation) ∨
        ∃ around, act = .maintain around ∧
          (f.step act).session.plane.registry =
            (f.session.plane.registry.cleanup f.session.clock.now around.fault).registry ∧
          ∀ call, .call call ∉ effects) := by
  have quiet (same : (f.step act).session.plane.registry = f.session.plane.registry)
      (adds : f.session.Adds (¬·.Alters) (f.step act).session) :
      ∃ effects, (f.step act).session.journal = f.session.journal ++ effects ∧
        ¬((f.step act).session.plane.registry ≠ f.session.plane.registry ∨ ∃ e ∈ effects, e.Alters) := by
    obtain ⟨effects, grown, kind⟩ := adds
    refine ⟨effects, grown, ?_⟩
    rintro (changed | ⟨e, member, alters⟩)
    · exact changed same
    · exact kind e member alters
  cases act with
  | advance number around =>
    cases found : f.requests[number]? with
    | none =>
      rw [step_of_missing found] at quiet ⊢
      obtain ⟨effects, grown, none⟩ := quiet rfl (Session.adds_of_journal_eq _ rfl)
      exact ⟨effects, grown, fun alters => absurd alters none⟩
    | some r =>
      rw [step_of_found found] at quiet ⊢
      have step := Request.step_advance around r f.session
      by_cases lesser : r.ready f.session.plane = true ∧ r.op.opClass = .mutation
      · obtain ⟨effects, grown, _⟩ := step.adds
        refine ⟨effects, grown, fun _ => .inl ⟨number, r, ?_, found, lesser.2⟩⟩
        exact performs_iff.2 ⟨around, r, rfl, found, lesser.1⟩
      · obtain ⟨same, adds⟩ := step.quiet lesser
        obtain ⟨effects, grown, none⟩ := quiet same adds
        exact ⟨effects, grown, fun alters => absurd alters none⟩
  | maintain around =>
    obtain ⟨⟨admission, same⟩, effects, grown, kind⟩ := Session.maintain_spec around f.session
    have swept := congrArg Plane.registry same
    refine ⟨effects, grown, fun _ => .inr ⟨around, rfl, swept, ?_⟩⟩
    exact fun call member => (kind _ member).1 call rfl
  | arrive | serve | wait | limiters =>
    obtain ⟨effects, grown, none⟩ := quiet rfl (Session.adds_of_journal_eq _ rfl)
    exact ⟨effects, grown, fun alters => absurd alters none⟩

/-! ### The gate before every effect -/

/-- What an act may do at a floor: it carries a request out only if every tier of it has let the request
pass and the credential is right where one is needed; otherwise it has nothing to do with the components;
and what is altered is altered by such a request, or by the sweep of maintenance. -/
structure Guarded (key : String) (f : Floor) (act : Act) : Prop where
  admitted : ∀ number, f.performs number act = true → ∃ around r,
    act = .advance number around ∧ f.requests[number]? = some r ∧
    Request.Admitted r.op.opClass.tiers r.decisions ∧
    (r.op.opClass = .mutation → Session.Fits key r.caller.credential) ∧
    (f.step act).session = (f.session.carryOut r.caller r.op r.began around).2
  untouched : (∀ number, f.performs number act = false) → act.isUpkeep = false →
    ∀ parts others, (f.equip parts).step (act.elsewhere others) = (f.step act).equip parts
  altered : ∃ effects, (f.step act).session.journal = f.session.journal ++ effects ∧
    ((f.step act).session.plane.registry ≠ f.session.plane.registry ∨ (∃ e ∈ effects, e.Alters) →
      (∃ number r, f.performs number act = true ∧ f.requests[number]? = some r ∧
        r.op.opClass = .mutation) ∨
      ∃ around, act = .maintain around ∧
        (f.step act).session.plane.registry =
          (f.session.plane.registry.cleanup f.session.clock.now around.fault).registry ∧
        ∀ call, .call call ∉ effects)

theorem Ordered.guarded {key : String} (ordered : f.Ordered key) (act : Act) : f.Guarded key act where
  admitted := by
    intro number performs
    obtain ⟨around, r, rfl, found, ready⟩ := performs_iff.1 performs
    obtain ⟨admitted, fits⟩ :=
      (ordered.inOrder r (List.mem_of_getElem? found)).of_ready ordered.key_eq ready
    refine ⟨around, r, rfl, found, admitted, fits, ?_⟩
    rw [step_of_found found, (Request.Step.carried ready).advance_eq]
  untouched := fun idle outside parts others => step_equip idle outside parts others
  altered := f.step_alters act

end Floor

/-- However requests, maintenance and the limiters come in one another's way, every request asks the tiers
of its class in order and no further than the first that refuses, and is carried out once if they all let it
pass and its credential is right where it needs one, and never otherwise; the tiers are charged for requests
alone; every act is guarded; and a request with nothing in its way is an operation of the control plane. -/
theorem gate_before_effect (s : Session) (acts : List Act) :
    (∀ r ∈ (Floor.after s acts).requests, r.InOrder s.plane.apiKey) ∧
      (∀ number r, (Floor.after s acts).requests[number]? = some r →
        Floor.bodies s number acts = match r.stage with
          | .done _ => 1
          | _ => 0) ∧
      (Floor.after s acts).session.charges.Perm
        (s.charges ++ (Floor.after s acts).requests.flatMap (·.decisions)) ∧
      (∀ act, (Floor.after s acts).Guarded s.plane.apiKey act) ∧
      ∀ caller op around, ∃ r next,
        Request.advances around (op.opClass.tiers.length + 1)
          (.arriving caller op (Floor.after s acts).session.clock.elapsed, (Floor.after s acts).session) =
            (r, next) ∧
        r.outcome next = some ((Floor.after s acts).session.run caller op around) := by
  have ordered := Floor.ordered_after s acts
  refine ⟨ordered.inOrder, fun number r found => ?_, Floor.charges_after s acts, ordered.guarded, ?_⟩
  · rw [Floor.bodies_after, Floor.bodiesAt, found]
    rfl
  · intro caller op around
    exact ⟨_, _, rfl, Request.outcome_advances caller op around _⟩

/-! ### Two callers at once -/

/-- A control plane with a key and nothing else of note. -/
def desk : Session where
  plane :=
    { apiKey := "s3cret"
      admission := .of {} false 0
      registry := { middleware := "dynamic-ipallowlist", place := .missing }
      workload := none
      monitor := { deadline := Span.second, version := "0.1.0", started := 0, cached := false }
      invoker := .of {} {} }
  clock := { origin := ⟨0, 0, Instant.zero_nanos_lt⟩ }

/-- Surroundings in which nothing answers. -/
def silence : Surroundings where
  cache := .absent
  primary := .never
  runtime :=
    ⟨.never, .never, .never, .never, .never, .never, .never, .never, .never, .never, .never, .never⟩

/-- A caller with the credential and one without ask for entries, and pass their tiers in turns. The latest
act stands first. -/
def crossing : List Act :=
  [.advance 1 silence, .advance 1 silence, .advance 0 silence, .advance 1 silence, .advance 0 silence,
    .arrive ⟨⟨"eve", none, none, "c-2"⟩, some "secret"⟩ (.addEntry .allow { pattern := "10.0.0.2" }),
    .arrive ⟨⟨"ops", none, none, "c-1"⟩, some "s3cret"⟩ (.addEntry .allow { pattern := "10.0.0.1" })]

theorem gate_before_effect_crossing :
    (Floor.after desk (.advance 0 silence :: crossing)).session.plane.registry ≠
        (Floor.after desk crossing).session.plane.registry ∧
      (∃ (number : Nat) (r : Request), (Floor.after desk crossing).requests[number]? = some r ∧
        Request.Admitted [.global, .admin] r.decisions ∧ Session.Fits "s3cret" r.caller.credential) ∧
      Floor.bodies desk 1 crossing = 0 := by
  obtain ⟨_, once, _, guarded, _⟩ := gate_before_effect desk crossing
  have changed : ((Floor.after desk crossing).step (.advance 0 silence)).session.plane.registry ≠
      (Floor.after desk crossing).session.plane.registry := by decide +kernel
  refine ⟨changed, ?_, ?_⟩
  · obtain ⟨effects, _, altered⟩ := (guarded (.advance 0 silence)).altered
    rcases altered (.inl changed) with ⟨number, r, performs, found, needs⟩ | ⟨_, upkeep, _⟩
    · obtain ⟨_, r', _, found', admitted, fits, _⟩ := (guarded _).admitted number performs
      cases found.symm.trans found'
      rw [needs] at admitted
      exact ⟨number, r, found, admitted, fits needs⟩
    · cases upkeep
  · have turned : (Floor.after desk crossing).requests[1]?.map Request.bodies = some 0 := by decide +kernel
    obtain ⟨r, found, none⟩ := Option.map_eq_some_iff.1 turned
    exact (once 1 r found).trans none

end HostControl.Control
