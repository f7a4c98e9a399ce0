/-
Module: HostControl.Proofs.Control.Effects
Purpose: What the parts of the pipeline add to the journal and change in the plane. The gate only charges
  tiers and records; what is behind it is neither changed by it nor does it decide anything there. Of the
  operations, only those that need the credential alter anything outside.
Main exports: Effect.OfGate, Effect.Alters, Session.Adds, Session.charges, chargeTier_spec, Session.equip,
  Session.counting, chargeTier_equip, perform_harmless, perform_spec, maintain_spec, authorized_iff
-/
import HostControl.Control.Plane

namespace HostControl

/-! ### Decisions of a tier -/

namespace Admission.Controller

variable {ctx : Context} {tier : Tier} {clock : Clock} {answers : Cache.Answers} {c next : Controller}
  {ruling : Ruling}

theorem scope_ofTaking (scope : String) (limit : Nat) (taking : Taking) :
    (Decision.ofTaking scope limit taking).scope = scope := by
  cases taking <;> rfl

/-- The cache is asked for nothing but to count. -/
def Counts (command : Cache.Command) : Prop :=
  (∃ key, command = .increment key) ∨ ∃ key seconds, command = .expire key seconds

/-- A command by which the cache counts a request of a tier. -/
def CountsFor (tier : Tier) (command : Cache.Command) : Prop :=
  ∃ now, command = .increment (windowKey tier now) ∨ ∃ seconds, command = .expire (windowKey tier now) seconds

theorem CountsFor.counts {command : Cache.Command} (counts : CountsFor tier command) : Counts command := by
  obtain ⟨now, rfl | ⟨seconds, rfl⟩⟩ := counts
  · exact .inl ⟨_, rfl⟩
  · exact .inr ⟨_, _, rfl⟩

theorem scope_of_checkLocal {now : Span} {decision : Decision}
    (done : c.checkLocal tier now = .ok (decision, next)) : decision.scope = tier.label := by
  unfold checkLocal at done
  cases taken : (c.bucket tier).take now with
  | error fault => simp [taken, bind, Except.bind] at done
  | ok result =>
    simp only [taken, bind, Except.bind, pure, Except.pure, Except.ok.injEq, Prod.mk.injEq] at done
    rw [← done.1]
    exact scope_ofTaking ..

/-- A count in the cache gives a decision of its tier or none, and asks the cache to count for that tier. -/
theorem countShared_spec :
    (∀ decision, (c.countShared tier clock answers).1 = .ok decision → decision.scope = tier.label) ∧
      ∀ command ∈ (c.countShared tier clock answers).2.2, CountsFor tier command := by
  have increments : CountsFor tier (.increment (windowKey tier clock.now)) := ⟨clock.now, .inl rfl⟩
  have expires : CountsFor tier (.expire (windowKey tier clock.now) windowExpiry) := ⟨clock.now, .inr ⟨_, rfl⟩⟩
  unfold countShared
  cases answered : (answers.increment (windowKey tier clock.now)).2 with
  | error e => simpa [answered] using increments
  | ok count =>
    by_cases first : count = 1
    · simpa [answered, first, Decision.ofCount] using And.intro increments expires
    · simpa [answered, first, Decision.ofCount] using increments

/-- A decision names the tier that made it. A check has the cache count for that tier only, and records a denial and
nothing else. -/
theorem check_spec (done : c.check ctx tier clock answers = .ok (ruling, next)) :
    ruling.decision.scope = tier.label ∧ (∀ command ∈ ruling.commands, CountsFor tier command) ∧
      ruling.events = denialEvents ctx ruling.decision := by
  obtain ⟨scope, counts⟩ := @countShared_spec tier clock answers c
  unfold check at done
  split at done
  · split at done
    · next decision took commands counted =>
      rw [counted] at scope counts
      simp only [pure, Except.pure, Except.ok.injEq, Prod.mk.injEq] at done
      obtain ⟨rfl, _⟩ := done
      exact ⟨scope decision rfl, counts, rfl⟩
    · next e took commands counted =>
      rw [counted] at counts
      cases own : c.checkLocal tier (clock.elapsed + took) with
      | error fault => simp [own, bind, Except.bind] at done
      | ok result =>
        simp only [own, bind, Except.bind, pure, Except.pure, Except.ok.injEq, Prod.mk.injEq] at done
        obtain ⟨rfl, _⟩ := done
        exact ⟨scope_of_checkLocal own, counts, rfl⟩
  · cases own : c.checkLocal tier clock.elapsed with
    | error fault => simp [own, bind, Except.bind] at done
    | ok result =>
      simp only [own, bind, Except.bind, pure, Except.pure, Except.ok.injEq, Prod.mk.injEq] at done
      obtain ⟨rfl, _⟩ := done
      exact ⟨scope_of_checkLocal own, nofun, rfl⟩

end Admission.Controller

namespace Control

/-! ### What is added to a journal -/

namespace Effect

/-- An effect that the gate has: a tier is charged, the cache is to count, an event is recorded. -/
def OfGate : Effect → Prop
  | .charge _ | .audit _ => True
  | .command sent => Admission.Controller.Counts sent
  | .call _ | .draft _ => False

/-- The decision of a tier that was charged. -/
def decision? : Effect → Option Admission.Decision
  | .charge decision => some decision
  | _ => none

/-- An effect that alters something outside: the proxy file is to be written, or the runtime is to start,
stop or restart a container. -/
def Alters : Effect → Prop
  | .draft _ | .call (.start _) | .call (.stop ..) | .call (.restart ..) => True
  | _ => False

/-- An effect that alters nothing outside and charges no tier. -/
def Harmless (e : Effect) : Prop := ¬e.Alters ∧ e.decision? = none

theorem not_alters_of_ofGate {e : Effect} (gate : e.OfGate) : ¬e.Alters := by
  cases e with
  | charge | audit | command => exact id
  | call | draft => exact gate.elim

end Effect

namespace Session

/-- The decisions of the tiers that were charged, in order. -/
def charges (s : Session) : List Admission.Decision := s.journal.filterMap Effect.decision?

/-- The journal goes on with effects of one kind. -/
def Adds (P : Effect → Prop) (s next : Session) : Prop :=
  ∃ effects, next.journal = s.journal ++ effects ∧ ∀ e ∈ effects, P e

variable {P Q : Effect → Prop} {s next : Session}

theorem adds_of_journal_eq (P : Effect → Prop) (same : next.journal = s.journal) : s.Adds P next :=
  ⟨[], by rw [same, List.append_nil], nofun⟩

theorem Adds.note {effects : List Effect} (adds : s.Adds P next) (kind : ∀ e ∈ effects, P e) :
    s.Adds P (next.note effects) := by
  obtain ⟨before, grown, same⟩ := adds
  refine ⟨before ++ effects, by rw [Session.note, grown, List.append_assoc], ?_⟩
  intro e member
  rcases List.mem_append.1 member with first | last
  · exact same e first
  · exact kind e last

theorem Adds.record {events : List Audit.Event} (adds : s.Adds P next)
    (audits : ∀ time, ∀ e ∈ events, P (.audit ⟨time, e⟩)) : s.Adds P (next.record events) := by
  apply adds.note
  intro e member
  obtain ⟨event, listed, rfl⟩ := List.mem_map.1 member
  exact audits _ event listed

theorem Adds.forward (adds : s.Adds P next) (d : Span) : s.Adds P (next.forward d) := adds

theorem uncharged {α : Type} (f : α → Effect) (kind : ∀ x, (f x).decision? = none) (xs : List α) :
    (xs.map f).filterMap Effect.decision? = [] := by
  rw [List.filterMap_map]
  exact List.filterMap_eq_nil_iff.2 fun x _ => kind x

@[simp] theorem charges_note (effects : List Effect) (s : Session) :
    (s.note effects).charges = s.charges ++ effects.filterMap Effect.decision? := List.filterMap_append

@[simp] theorem charges_forward (d : Span) (s : Session) : (s.forward d).charges = s.charges := rfl

@[simp] theorem charges_record (events : List Audit.Event) (s : Session) :
    (s.record events).charges = s.charges := by
  rw [record, charges_note, uncharged _ fun _ => rfl, List.append_nil]

theorem charges_of_adds (adds : s.Adds (·.decision? = none) next) : next.charges = s.charges := by
  obtain ⟨effects, grown, kind⟩ := adds
  rw [charges, grown, List.filterMap_append, List.filterMap_eq_nil_iff.2 kind, List.append_nil, charges]

theorem Adds.mono (adds : s.Adds P next) (weaker : ∀ e, P e → Q e) : s.Adds Q next := by
  obtain ⟨effects, grown, kind⟩ := adds
  exact ⟨effects, grown, fun e member => weaker e (kind e member)⟩

/-! ### The gate -/

/-- A tier that is asked answers for itself. Nothing but the limiters changes by that. -/
theorem chargeTier_spec {ctx : Context} {tier : Admission.Tier} {around : Surroundings}
    {decision : Admission.Decision} (done : s.chargeTier ctx tier around = .ok (decision, next)) :
    decision.scope = tier.label ∧ s.Adds Effect.OfGate next ∧ next.charges = s.charges ++ [decision] ∧
      ∃ admission, next.plane = { s.plane with admission } := by
  unfold chargeTier at done
  cases checked : s.plane.admission.check ctx tier s.clock around.cache with
  | error fault => simp [checked, bind, Except.bind] at done
  | ok result =>
    obtain ⟨ruling, admission⟩ := result
    simp only [checked, bind, Except.bind, pure, Except.pure, Except.ok.injEq, Prod.mk.injEq] at done
    obtain ⟨rfl, rfl⟩ := done
    obtain ⟨scope, counts, _⟩ := Admission.Controller.check_spec checked
    refine ⟨scope, ?_, ?_, admission, rfl⟩
    · have commands : ∀ e ∈ ruling.commands.map Effect.command, e.OfGate := by
        intro e member
        obtain ⟨command, sent, rfl⟩ := List.mem_map.1 member
        exact (counts command sent).counts
      have charged : ∀ e ∈ [Effect.charge ruling.decision], e.OfGate := by
        intro e member
        rw [List.mem_singleton.1 member]
        trivial
      exact ((((adds_of_journal_eq _ rfl).note commands).forward _).note charged).record
        fun _ _ _ => trivial
    · rw [charges_record, charges_note, charges_forward, charges_note,
        uncharged Effect.command fun _ => rfl, List.append_nil]
      rfl

/-- The session with the components of another plane. -/
def equip (parts : Plane) (s : Session) : Session where
  plane := { parts with apiKey := s.plane.apiKey, admission := s.plane.admission }
  clock := s.clock
  journal := s.journal

/-- Surroundings that count requests as others do, and answer everything else in a way of their own. -/
def counting (others around : Surroundings) : Surroundings where
  cache := { around.cache with increment := others.cache.increment, expire := others.cache.expire }
  primary := around.primary
  runtime := around.runtime
  fault := around.fault

/-- The tiers neither ask the components nor change them. -/
theorem chargeTier_equip {ctx : Context} {tier : Admission.Tier} (around elsewhere : Surroundings)
    (parts : Plane) (s : Session) :
    (s.equip parts).chargeTier ctx tier (counting around elsewhere) =
      (s.chargeTier ctx tier around).map fun (decision, next) => (decision, next.equip parts) := by
  unfold chargeTier
  have same : (s.equip parts).plane.admission.check ctx tier (s.equip parts).clock
      (counting around elsewhere).cache = s.plane.admission.check ctx tier s.clock around.cache := rfl
  rw [same]
  cases s.plane.admission.check ctx tier s.clock around.cache with
  | error fault => rfl
  | ok result => rfl

/-! ### Operations of the container controller -/

/-- An operation of the container controller changes nothing in the plane and adds its calls and events. -/
theorem onWorkload_spec {α : Type} {P : Effect → Prop} (wrap : α → Payload)
    {body : Workload.Controller → Workload.Run α} (audits : ∀ c time, ∀ e ∈ (body c).events, P (.audit ⟨time, e⟩))
    (calls : ∀ c, ∀ call ∈ (body c).calls, P (.call call)) :
    (s.onWorkload wrap body).2.plane = s.plane ∧ s.Adds P (s.onWorkload wrap body).2 := by
  unfold onWorkload
  cases s.plane.workload with
  | none => exact ⟨rfl, adds_of_journal_eq P rfl⟩
  | some controller =>
    have called : ∀ e ∈ (body controller).calls.map Effect.call, P e := by
      intro e member
      obtain ⟨call, made, rfl⟩ := List.mem_map.1 member
      exact calls controller call made
    exact ⟨rfl, (((adds_of_journal_eq P rfl).note called).forward _).record (audits controller)⟩

/-- A change of the access lists changes nothing else in the plane and adds its drafts and events. -/
theorem onRegistry_spec {α : Type} {P : Effect → Prop} (wrap : α → Payload)
    (change : Access.Registry → Access.Change α)
    (audits : ∀ time, ∀ e ∈ (change s.plane.registry).events, P (.audit ⟨time, e⟩)) (drafts : ∀ text, P (.draft text)) :
    (s.onRegistry wrap change).2.plane = { s.plane with registry := (change s.plane.registry).registry } ∧
      s.Adds P (s.onRegistry wrap change).2 := by
  have drafted : ∀ e ∈ (change s.plane.registry).drafts.map Effect.draft, P e := by
    intro e member
    obtain ⟨text, _, rfl⟩ := List.mem_map.1 member
    exact drafts text
  exact ⟨rfl, ((adds_of_journal_eq P rfl).note drafted).record audits⟩

/-! ### Carrying out -/

theorem calls_withReference {α : Type} {P : Workload.RuntimeCall → Prop} {id : String}
    {body : String → Workload.Run α} (calls : ∀ name, ∀ call ∈ (body name).calls, P call) :
    ∀ call ∈ (Workload.Controller.withReference id body).calls, P call := by
  unfold Workload.Controller.withReference
  cases Workload.reference id with
  | error e => exact nofun
  | ok name => exact calls name

/-- What reads the state of the containers makes one call at most, and alters nothing by it. -/
theorem onWorkload_harmless {α : Type} (wrap : α → Payload) {body : Workload.Controller → Workload.Run α}
    (reads : ∀ c, ∀ call ∈ (body c).calls, (Effect.call call).Harmless) :
    (s.onWorkload wrap body).2.plane = s.plane ∧ s.Adds Effect.Harmless (s.onWorkload wrap body).2 :=
  onWorkload_spec wrap (fun _ _ _ _ => ⟨id, rfl⟩) reads

/-- An operation that does not need the credential changes nothing and alters nothing. -/
theorem perform_harmless {caller : Caller} {op : Operation} {around : Surroundings}
    (free : op.opClass ≠ .mutation) :
    (s.perform caller op around).2.plane = s.plane ∧
      s.Adds Effect.Harmless (s.perform caller op around).2 := by
  have pings : ∀ e ∈ s.plane.monitor.pings.map Effect.command, e.Harmless := by
    intro e member
    obtain ⟨command, _, rfl⟩ := List.mem_map.1 member
    exact ⟨id, rfl⟩
  cases op with
  | health => exact ⟨rfl, ((adds_of_journal_eq _ rfl).note pings).forward _⟩
  | primaryHealth => exact ⟨rfl, (adds_of_journal_eq _ rfl).forward _⟩
  | cacheHealth => exact ⟨rfl, ((adds_of_journal_eq _ rfl).note pings).forward _⟩
  | limiterStats | cacheStats | circuitStats | listEntries | isAllowed =>
    exact ⟨rfl, adds_of_journal_eq _ rfl⟩
  | startContainer | stopContainer | restartContainer | addEntry | removeEntry | cleanupExpired =>
    exact absurd rfl free
  | listContainers | platformServices | images | networks | volumes | systemInfo =>
    apply onWorkload_harmless
    rintro c call (_ | ⟨_, ⟨⟩⟩)
    exact ⟨id, rfl⟩
  | describeContainer | containerLogs | containerStats =>
    apply onWorkload_harmless
    intro c
    apply calls_withReference
    rintro name call (_ | ⟨_, ⟨⟩⟩)
    exact ⟨id, rfl⟩

/-- Whatever the operation is, it changes nothing in the plane but the access lists, and charges no tier. -/
theorem perform_spec (caller : Caller) (op : Operation) (around : Surroundings) (s : Session) :
    (∃ registry, (s.perform caller op around).2.plane = { s.plane with registry }) ∧
      s.Adds (·.decision? = none) (s.perform caller op around).2 := by
  by_cases needs : op.opClass = .mutation
  · cases op with
    | startContainer | stopContainer | restartContainer =>
      obtain ⟨same, adds⟩ :=
        @onWorkload_spec s _ (·.decision? = none) (fun _ => Payload.done) _ (fun _ _ _ _ => rfl) fun _ _ _ => rfl
      exact ⟨⟨_, same⟩, adds⟩
    | addEntry | removeEntry | cleanupExpired =>
      exact ⟨⟨_, rfl⟩, (onRegistry_spec _ _ (fun _ _ _ => rfl) fun _ => rfl).2⟩
    | _ => exact absurd needs nofun
  · obtain ⟨same, adds⟩ := perform_harmless needs
    exact ⟨⟨_, same⟩, adds.mono fun _ harmless => harmless.2⟩

/-- A round of maintenance sweeps the access lists, makes no call and charges no tier. -/
theorem maintain_spec (around : Surroundings) (s : Session) :
    (∃ admission, (s.maintain around).2.plane =
        { s.plane with
          registry := (s.plane.registry.cleanup s.clock.now around.fault).registry, admission }) ∧
      s.Adds (fun e => (∀ call, e ≠ .call call) ∧ e.decision? = none) (s.maintain around).2 :=
  ⟨⟨_, rfl⟩, (onRegistry_spec Payload.count _ (fun _ _ _ => ⟨nofun, rfl⟩) fun _ => ⟨nofun, rfl⟩).2⟩

/-- A credential that is given has the bytes of a key, and there is a key. -/
def Fits (key : String) (credential : Option String) : Prop :=
  ∃ presented, credential = some presented ∧ presented.toUTF8 = key.toUTF8 ∧ key ≠ ""

theorem authorized_iff {credential : Option String} {p : Plane} :
    authorized credential p = true ↔ Fits p.apiKey credential := by
  unfold Fits
  cases credential with
  | none => simp [authorized]
  | some presented =>
    simp only [authorized, Bool.and_eq_true, Bool.not_eq_true', String.isEmpty_eq_false_iff, beq_iff_eq,
      Option.some.injEq]
    constructor
    · rintro ⟨key, rfl⟩
      exact ⟨_, rfl, rfl, key⟩
    · rintro ⟨_, rfl, bytes, key⟩
      exact ⟨key, String.toByteArray_inj.1 bytes⟩

end Session

end Control

end HostControl
